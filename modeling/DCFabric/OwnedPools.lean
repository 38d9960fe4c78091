import Mathlib

namespace OwnedPools

variable {ι τ : Type} {owner owner' : ι → Option τ} {held held' : Finset τ} {i j : ι}
  {t : τ}

/-- What is held of a pool is what the owners have, and no two of them have the same. -/
structure Accounts (owner : ι → Option τ) (held : Finset τ) : Prop where
  held : ∀ t, t ∈ held ↔ ∃ i, owner i = some t
  one : ∀ i j t, owner i = some t → owner j = some t → i = j

theorem accounts_none : Accounts (fun _ : ι => none) (∅ : Finset τ) where
  held t := by simp
  one i j t hi := by cases hi

/-- What an owner had and none has any more is not accounted for while it is held. -/
theorem Accounts.not_of_lost (h : Accounts owner held) (hi : owner i = some t) (ht : t ∈ held')
    (hlost : ∀ j, owner' j = some t → owner j = some t ∧ j ≠ i) : ¬ Accounts owner' held' := by
  intro h'
  obtain ⟨j, hj⟩ := (h'.held t).mp ht
  obtain ⟨hold, hne⟩ := hlost j hj
  exact hne (h.one j i t hold hi)

variable [DecidableEq ι]

/-- There are as many owners as there is held. -/
theorem Accounts.exists_owners (h : Accounts owner held) :
    ∃ owners : Finset ι, owners.card = held.card ∧ ∀ i ∈ owners, (owner i).isSome := by
  choose ownerOf hof using fun t (ht : t ∈ held) => (h.held t).mp ht
  refine ⟨held.attach.image fun t => ownerOf t.1 t.2, ?_, ?_⟩
  · rw [Finset.card_image_of_injective, Finset.card_attach]
    intro t u htu
    have heq : some t.1 = some u.1 := by
      rw [← hof t.1 t.2, ← hof u.1 u.2]
      exact congrArg owner htu
    exact Subtype.ext (Option.some.inj heq)
  · intro i hi
    obtain ⟨t, -, rfl⟩ := Finset.mem_image.mp hi
    rw [hof t.1 t.2]
    rfl

variable [DecidableEq τ]

theorem Accounts.take (h : Accounts owner held) (hi : owner i = none) (ht : t ∉ held) :
    Accounts (Function.update owner i (some t)) (insert t held) where
  held u := by
    rw [Finset.mem_insert, h.held]
    constructor
    · rintro (rfl | ⟨j, hj⟩)
      · exact ⟨i, Function.update_self ..⟩
      · have hne : j ≠ i := by
          rintro rfl
          rw [hi] at hj
          cases hj
        exact ⟨j, (Function.update_of_ne hne ..).trans hj⟩
    · rintro ⟨j, hj⟩
      rw [Function.update_apply] at hj
      split_ifs at hj with hji
      · exact .inl (Option.some.inj hj).symm
      · exact .inr ⟨j, hj⟩
  one j k u hj hk := by
    have hfresh : ∀ l, owner l ≠ some t := fun l hl => ht ((h.held t).mpr ⟨l, hl⟩)
    rw [Function.update_apply] at hj hk
    split_ifs at hj hk with hji hki hki
    · rw [hji, hki]
    · exact absurd (hk.trans hj.symm) (hfresh k)
    · exact absurd (hj.trans hk.symm) (hfresh j)
    · exact h.one j k u hj hk

theorem Accounts.release (h : Accounts owner held) (hi : owner i = some t) :
    Accounts (Function.update owner i none) (held.erase t) where
  held u := by
    rw [Finset.mem_erase, h.held]
    constructor
    · rintro ⟨hu, j, hj⟩
      have hne : j ≠ i := by
        rintro rfl
        exact hu (Option.some.inj (hj.symm.trans hi))
      exact ⟨j, (Function.update_of_ne hne ..).trans hj⟩
    · rintro ⟨j, hj⟩
      rw [Function.update_apply] at hj
      split_ifs at hj with hji
      refine ⟨?_, j, hj⟩
      rintro rfl
      exact hji (h.one j i u hj hi)
  one j k u hj hk := by
    rw [Function.update_apply] at hj hk
    split_ifs at hj hk
    exact h.one j k u hj hk

theorem Accounts.move (h : Accounts owner held) (hi : owner i = some t) (hj : j = i ∨ owner j = none) :
    Accounts (Function.update (Function.update owner i none) j (some t)) held := by
  have hheld : t ∈ held := (h.held t).mpr ⟨i, hi⟩
  have hfree : Function.update owner i none j = none := by
    rw [Function.update_apply]
    split_ifs with hji
    · rfl
    · exact hj.resolve_left hji
  have hmove := (h.release hi).take hfree (Finset.notMem_erase t held)
  rwa [Finset.insert_erase hheld] at hmove

end OwnedPools
