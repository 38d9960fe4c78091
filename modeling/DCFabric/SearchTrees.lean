import DCFabric.BreadthFirst

namespace SearchTrees

open BreadthFirst

variable {V E P : Type} {S : Search V E P} {root p q r : P} {e : E} {v : V} {items items' done : List P}

/-- Search items that each extend another one along an out-link, one for each vertex. -/
structure Tree (S : Search V E P) (root : P) (items : List P) : Prop where
  root_mem : root ∈ items
  nodup : (items.map S.key).Nodup
  parent : ∀ q ∈ items, q = root ∨ ∃ r ∈ items, ∃ e ∈ S.out (S.key r), q = S.extend r e
  simple : ∀ q ∈ items, (S.trail q).Nodup ∧ ∀ v ∈ S.trail q, v ∈ items.map S.key
  built : ∀ q ∈ items, S.Built root q

/-- The links of the items of `done` lead to items that are there. -/
def Closed (S : Search V E P) (done items : List P) : Prop :=
  ∀ q ∈ done, ∀ e ∈ S.out (S.key q), S.target e ∈ items.map S.key

theorem Tree.start (hroot : S.trail root = [S.key root]) : Tree S root [root] where
  root_mem := List.mem_singleton_self root
  nodup := List.nodup_singleton _
  parent := by simp
  simple := by simp [hroot]
  built := by simpa using Search.Built.root

theorem Tree.perm (h : Tree S root items) (hp : items.Perm items') : Tree S root items' where
  root_mem := hp.mem_iff.mp h.root_mem
  nodup := (hp.map S.key).nodup_iff.mp h.nodup
  parent := by
    intro q hq
    refine (h.parent q (hp.mem_iff.mpr hq)).imp_right ?_
    rintro ⟨r, hr, he⟩
    exact ⟨r, hp.mem_iff.mp hr, he⟩
  simple := by
    intro q hq
    obtain ⟨hnodup, hkeys⟩ := h.simple q (hp.mem_iff.mpr hq)
    exact ⟨hnodup, fun v hv => (hp.map S.key).mem_iff.mp (hkeys v hv)⟩
  built := fun q hq => h.built q (hp.mem_iff.mpr hq)

/-- A new vertex may be attached to any item. -/
theorem Tree.attach (h : Tree S root items) (hr : r ∈ items) (he : e ∈ S.out (S.key r))
    (hnew : S.target e ∉ items.map S.key) : Tree S root (S.extend r e :: items) where
  root_mem := List.mem_cons_of_mem _ h.root_mem
  nodup := by
    rw [List.map_cons, S.key_extend]
    exact List.nodup_cons.mpr ⟨hnew, h.nodup⟩
  parent := by
    rw [List.forall_mem_cons]
    refine ⟨.inr ⟨r, List.mem_cons_of_mem _ hr, e, he, rfl⟩, ?_⟩
    intro q hq
    refine (h.parent q hq).imp_right ?_
    rintro ⟨r', hr', he'⟩
    exact ⟨r', List.mem_cons_of_mem _ hr', he'⟩
  simple := by
    rw [List.map_cons, S.key_extend]
    rw [List.forall_mem_cons]
    constructor
    · obtain ⟨hnodup, hkeys⟩ := h.simple r hr
      rw [S.trail_extend]
      refine ⟨List.nodup_cons.mpr ⟨fun hm => hnew (hkeys _ hm), hnodup⟩, ?_⟩
      rw [List.forall_mem_cons]
      exact ⟨List.mem_cons_self, fun v hv => List.mem_cons_of_mem _ (hkeys v hv)⟩
    · intro q hq
      obtain ⟨hnodup, hkeys⟩ := h.simple q hq
      exact ⟨hnodup, fun v hv => List.mem_cons_of_mem _ (hkeys v hv)⟩
  built := List.forall_mem_cons.mpr ⟨(h.built r hr).extend he, h.built⟩

theorem Tree.key_inj (h : Tree S root items) (hq : q ∈ items) (hr : r ∈ items) (hk : S.key q = S.key r) : q = r :=
  List.inj_on_of_nodup_map h.nodup hq hr hk

/-- The vertices of a finished search are those that a walk leads to. -/
theorem Tree.mem_keys_iff (hroot : S.trail root = [S.key root]) (h : Tree S root items) (hc : Closed S items items) :
    v ∈ items.map S.key ↔ ∃ n, S.Walk (S.key root) n v := by
  constructor
  · intro hv
    obtain ⟨q, hq, rfl⟩ := List.mem_map.mp hv
    obtain ⟨n, hw, -⟩ := (h.built q hq).walk hroot
    exact ⟨n, hw⟩
  · rintro ⟨n, hw⟩
    induction hw with
    | nil => exact List.mem_map_of_mem h.root_mem
    | snoc walk he ih =>
      obtain ⟨q, hq, rfl⟩ := List.mem_map.mp ih
      exact hc q hq _ he

theorem Closed.perm (h : Closed S done items) (hp : items.Perm items') : Closed S done items' :=
  fun q hq e he => (hp.map S.key).mem_iff.mp (h q hq e he)

/-- What every item satisfies when the root does and it passes from an item to those that extend it. -/
theorem Tree.induct {C : P → Prop} (h : Tree S root items) (hroot : C root)
    (hext : ∀ r ∈ items, ∀ e ∈ S.out (S.key r), S.extend r e ∈ items → C r → C (S.extend r e)) :
    ∀ q ∈ items, C q := by
  intro q hq
  induction hn : (S.trail q).length using Nat.strong_induction_on generalizing q with
  | _ n ih =>
    rcases h.parent q hq with rfl | ⟨r, hr, e, he, rfl⟩
    · exact hroot
    · apply hext r hr e he hq
      refine ih _ ?_ r hr rfl
      rw [← hn, S.trail_extend]
      exact Nat.lt_succ_self _

end SearchTrees
