import Mathlib

namespace LinkedQueues

variable {α : Type} {next next' : α → α} {null head tail head' tail' a b : α} {l r : List α}

/-- The nodes of a queue from its head on: each is followed by the next one, and the last by `null`. -/
structure Queue (next : α → α) (null : α) (l : List α) (head tail : α) : Prop where
  first : l.head? = some head
  final : l.getLast? = some tail
  linked : l.IsChain fun a b => next a = b
  last : next tail = null
  ne_null : null ∉ l

theorem Queue.singleton (hnull : null ≠ a) (hlast : next a = null) : Queue next null [a] a a :=
  ⟨rfl, rfl, List.isChain_singleton a, hlast, fun hm => hnull (List.mem_singleton.mp hm)⟩

theorem Queue.cons (h : Queue next null l head tail) (hnull : null ≠ a) (hnext : next a = head) :
    Queue next null (a :: l) a tail := by
  obtain ⟨r, rfl⟩ := List.head?_eq_some_iff.mp h.first
  refine ⟨rfl, ?_, List.isChain_cons_cons.mpr ⟨hnext, h.linked⟩, h.last, ?_⟩
  · rw [List.getLast?_cons_cons, h.final]
  · rw [List.mem_cons, not_or]
    exact ⟨hnull, h.ne_null⟩

theorem Queue.mem_head (h : Queue next null l head tail) : head ∈ l := List.mem_of_head? h.first

theorem Queue.mem_tail (h : Queue next null l head tail) : tail ∈ l := List.mem_of_getLast? h.final

theorem Queue.ne_null_of_mem (h : Queue next null l head tail) (ha : a ∈ l) : a ≠ null := by
  rintro rfl
  exact h.ne_null ha

/-- A queue reads nothing but its own links. -/
theorem Queue.congr (h : Queue next null l head tail) (hnext : ∀ a ∈ l, next' a = next a) :
    Queue next' null l head tail where
  first := h.first
  final := h.final
  linked := h.linked.imp_of_mem_imp fun a _ ha _ hab => (hnext a ha).trans hab
  last := (hnext tail h.mem_tail).trans h.last
  ne_null := h.ne_null

/-- A queue whose ends differ gives its head away. -/
theorem Queue.pop (h : Queue next null l head tail) (hne : head ≠ tail) :
    ∃ r, l = head :: r ∧ Queue next null r (next head) tail := by
  obtain ⟨r, rfl⟩ := List.head?_eq_some_iff.mp h.first
  cases r with
  | nil => exact absurd (Option.some.inj h.final) hne
  | cons b r =>
    obtain ⟨hab, hr⟩ := List.isChain_cons_cons.mp h.linked
    have hlast := h.final
    rw [List.getLast?_cons_cons] at hlast
    exact ⟨b :: r, rfl, congrArg some hab.symm, hlast, hr, h.last, fun hm => h.ne_null (List.mem_cons_of_mem head hm)⟩

/-- A queue is put behind another by a link from the tail of this one to its head. -/
theorem Queue.append (h : Queue next null l head tail) (hl : l.Nodup) (h' : Queue next' null r head' tail')
    (hnext : ∀ a ∈ l, a ≠ tail → next' a = next a) (hjoin : next' tail = head') :
    Queue next' null (l ++ r) head tail' := by
  obtain ⟨front, rfl⟩ := List.getLast?_eq_some_iff.mp h.final
  obtain ⟨back, rfl⟩ := List.head?_eq_some_iff.mp h'.first
  have hfront : ∀ a ∈ front, a ≠ tail := by
    rintro a ha rfl
    exact (List.nodup_append.mp hl).2.2 a ha a (List.mem_singleton_self a) rfl
  obtain ⟨hchain, -, hlink⟩ := List.isChain_append.mp h.linked
  constructor
  · rw [List.head?_append, h.first, Option.some_or]
  · rw [List.getLast?_append, h'.final, Option.some_or]
  · rw [List.append_assoc, List.singleton_append]
    refine List.isChain_append.mpr ⟨?_, List.isChain_cons_cons.mpr ⟨hjoin, h'.linked⟩, ?_⟩
    · refine hchain.imp_of_mem_imp fun a _ ha _ hab => ?_
      exact (hnext a (List.mem_append_left _ ha) (hfront a ha)).trans hab
    · intro a ha b hb
      have ham := List.mem_of_getLast? ha
      exact (hnext a (List.mem_append_left _ ham) (hfront a ham)).trans (hlink a ha b hb)
  · exact h'.last
  · rw [List.mem_append, not_or]
    exact ⟨h.ne_null, h'.ne_null⟩

/-- The links leave one way to read a queue. -/
theorem Queue.unique (h : Queue next null l head tail) (h' : Queue next null r head tail') : l = r := by
  induction l generalizing head r with
  | nil => cases h.first
  | cons a l ih =>
    obtain rfl := Option.some.inj h.first
    obtain ⟨r, rfl⟩ := List.head?_eq_some_iff.mp h'.first
    cases l with
    | nil =>
      obtain rfl := Option.some.inj h.final
      cases r with
      | nil => rfl
      | cons b r =>
        have hnull : null = b := h.last.symm.trans (List.isChain_cons_cons.mp h'.linked).1
        exact absurd (hnull ▸ List.mem_cons_of_mem a List.mem_cons_self) h'.ne_null
    | cons b l =>
      have hne : b ≠ null := h.ne_null_of_mem (List.mem_cons_of_mem a List.mem_cons_self)
      have hab := (List.isChain_cons_cons.mp h.linked).1
      cases r with
      | nil =>
        obtain rfl := Option.some.inj h'.final
        exact absurd (hab.symm.trans h'.last) hne
      | cons c r =>
        obtain rfl : b = c := hab.symm.trans (List.isChain_cons_cons.mp h'.linked).1
        have htail := h.final
        have htail' := h'.final
        rw [List.getLast?_cons_cons] at htail htail'
        have hrest : Queue next null (b :: l) b tail := ⟨rfl, htail, h.linked.tail, h.last, fun hm =>
          h.ne_null (List.mem_cons_of_mem a hm)⟩
        have hrest' : Queue next null (b :: r) b tail' := ⟨rfl, htail', h'.linked.tail, h'.last, fun hm =>
          h'.ne_null (List.mem_cons_of_mem a hm)⟩
        rw [ih hrest hrest']

end LinkedQueues
