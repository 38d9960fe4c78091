import Mathlib.Data.List.Forall2

namespace WorkQueues

variable {I M R : Type}

/-- An item is queued, or the worker is at the point where it takes the next one. -/
inductive Event (I M : Type) where
  | push (item : I)
  | take (m : M)

/-- The items that are queued, in their order. -/
def pushed : List (Event I M) → List I
  | [] => []
  | .push item :: es => item :: pushed es
  | .take _ :: es => pushed es

/-- What the worker makes of the items it takes, and the items that are left. It waits while there is none. -/
def run (work : M → I → R) : List (Event I M) → List I → List R × List I
  | [], queue => ([], queue)
  | .push item :: es, queue => run work es (queue ++ [item])
  | .take _ :: es, [] => run work es []
  | .take m :: es, item :: queue => (work m item :: (run work es queue).1, (run work es queue).2)

/-- The items are worked off in the order in which they are queued, each of them once. -/
theorem run_takes (work : M → I → R) (es : List (Event I M)) (queue : List I) :
    ∃ taken, queue ++ pushed es = taken ++ (run work es queue).2 ∧
      List.Forall₂ (fun item r => ∃ m, r = work m item) taken (run work es queue).1 := by
  induction es generalizing queue with
  | nil => exact ⟨[], List.append_nil queue, .nil⟩
  | cons e es ih =>
    cases e with
    | push item =>
      obtain ⟨taken, hqueue, htaken⟩ := ih (queue ++ [item])
      exact ⟨taken, (List.append_assoc queue [item] (pushed es)).symm.trans hqueue, htaken⟩
    | take m =>
      cases queue with
      | nil => exact ih []
      | cons item queue =>
        obtain ⟨taken, hqueue, htaken⟩ := ih queue
        exact ⟨item :: taken, congrArg (item :: ·) hqueue, .cons ⟨m, rfl⟩ htaken⟩

/-- The items that have been taken. -/
theorem run_take_length (work : M → I → R) (es : List (Event I M)) :
    List.Forall₂ (fun item r => ∃ m, r = work m item) ((pushed es).take (run work es []).1.length)
      (run work es []).1 := by
  obtain ⟨taken, hqueue, htaken⟩ := run_takes work es []
  have hfront : (pushed es).take (run work es []).1.length = taken := by
    rw [← htaken.length_eq, ← List.nil_append (pushed es), hqueue, List.take_left]
  rwa [hfront]

theorem forall₂_iff_of_forall₂ {A B : Type} {P Q : A → B → Prop} {K : A → Prop} {as : List A} {bs : List B}
    (h : List.Forall₂ P as bs) (hiff : ∀ a b, P a b → (Q a b ↔ K a)) :
    List.Forall₂ Q as bs ↔ ∀ a ∈ as, K a := by
  induction h with
  | nil => simp
  | cons hab _ ih => rw [List.forall₂_cons, List.forall_mem_cons, hiff _ _ hab, ih]

end WorkQueues
