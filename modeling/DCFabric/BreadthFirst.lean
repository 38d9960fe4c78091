import Mathlib

namespace BreadthFirst

variable {V E P : Type}

/-- A graph of out-links together with the search items grown along them; `trail` lists the vertices
an item runs through, the newest first. -/
structure Search (V E P : Type) where
  out : V → List E
  target : E → V
  extend : P → E → P
  key : P → V
  trail : P → List V
  key_extend : ∀ p e, key (extend p e) = target e
  trail_extend : ∀ p e, trail (extend p e) = target e :: trail p

structure State (V P : Type) where
  used : Finset V
  queue : List P
  done : List P

def State.items (s : State V P) : List P := s.done ++ s.queue

namespace Search

variable (S : Search V E P)

inductive Walk (v : V) : ℕ → V → Prop
  | nil : Walk v 0 v
  | snoc {n : ℕ} {u : V} {e : E} (walk : Walk v n u) (he : e ∈ S.out u) : Walk v (n + 1) (S.target e)

inductive Built (root : P) : P → Prop
  | root : Built root root
  | extend {p : P} {e : E} (built : Built root p) (he : e ∈ S.out (S.key p)) :
      Built root (S.extend p e)

def start (root : P) : State V P := ⟨{S.key root}, [root], []⟩

theorem start_items (root : P) : (S.start root).items = [root] := rfl

variable {S} in
theorem Built.walk {root : P} (hroot : S.trail root = [S.key root]) {q : P} (h : S.Built root q) :
    ∃ n, S.Walk (S.key root) n (S.key q) ∧ (S.trail q).length = n + 1 := by
  induction h with
  | root => exact ⟨0, .nil, by simp [hroot]⟩
  | extend built he ih =>
    obtain ⟨n, hw, hl⟩ := ih
    exact ⟨n + 1, by rw [S.key_extend]; exact hw.snoc he, by rw [S.trail_extend, List.length_cons, hl]⟩

variable [DecidableEq V]

def visit (p : P) (s : State V P) (e : E) : State V P :=
  if S.target e ∈ s.used then s
  else { s with used := insert (S.target e) s.used, queue := s.queue ++ [S.extend p e] }

def expand (s : State V P) : State V P :=
  match s.queue with
  | [] => s
  | p :: rest => (S.out (S.key p)).foldl (S.visit p) { s with queue := rest, done := s.done ++ [p] }

end Search

/-- The invariant while `todo` is what is left to scan of the links of the last item of `done`. -/
structure Search.Inv [DecidableEq V] (S : Search V E P) (root p : P) (todo : List E) (s : State V P) :
    Prop where
  used : ∀ v, v ∈ s.used ↔ ∃ q ∈ s.items, S.key q = v
  nodup : (s.items.map S.key).Nodup
  built : ∀ q ∈ s.items, S.Built root q
  root_mem : root ∈ s.items
  parent : ∀ q ∈ s.items, q = root ∨ ∃ r ∈ s.done, ∃ e ∈ S.out (S.key r), q = S.extend r e
  simple : ∀ q ∈ s.items, (S.trail q).Nodup ∧ ∀ v ∈ S.trail q, v ∈ s.used
  sorted : s.items.Pairwise (fun q r => (S.trail q).length ≤ (S.trail r).length)
  closed : ∀ q ∈ s.done, ∀ e ∈ S.out (S.key q), (q = p ∧ e ∈ todo) ∨
    ∃ r ∈ s.items, S.key r = S.target e ∧ (S.trail r).length ≤ (S.trail q).length + 1

namespace Search

variable [DecidableEq V] {S : Search V E P} {root p : P} {s : State V P}

theorem visit_done (p : P) (s : State V P) (e : E) : (S.visit p s e).done = s.done := by
  unfold visit
  split_ifs <;> rfl

theorem Inv.visit {e : E} {todo : List E} (h : S.Inv root p (e :: todo) s)
    (hp : p ∈ s.done) (he : e ∈ S.out (S.key p))
    (hw : ∀ q ∈ s.items, (S.trail q).length ≤ (S.trail p).length + 1) :
    S.Inv root p todo (S.visit p s e) ∧
      ∀ q ∈ (S.visit p s e).items, (S.trail q).length ≤ (S.trail p).length + 1 := by
  have hpi : p ∈ s.items := List.mem_append_left _ hp
  by_cases hu : S.target e ∈ s.used
  · obtain ⟨r, hr, hk⟩ := (h.used _).mp hu
    have hv : S.visit p s e = s := if_pos hu
    rw [hv]
    refine ⟨{ h with closed := fun q hq e' he' => ?_ }, hw⟩
    rcases h.closed q hq e' he' with ⟨rfl, hm⟩ | hf
    · rcases List.mem_cons.mp hm with rfl | hm
      · exact Or.inr ⟨r, hr, hk, hw r hr⟩
      · exact Or.inl ⟨rfl, hm⟩
    · exact Or.inr hf
  · have hv : S.visit p s e = { s with used := insert (S.target e) s.used,
                                       queue := s.queue ++ [S.extend p e] } := if_neg hu
    have hi : (S.visit p s e).items = s.items ++ [S.extend p e] := by
      rw [hv]; simp only [State.items, List.append_assoc]
    have hlen : (S.trail (S.extend p e)).length = (S.trail p).length + 1 := by
      rw [S.trail_extend, List.length_cons]
    have hnew : ∀ {Q : P → Prop}, (∀ q ∈ s.items, Q q) → Q (S.extend p e) →
        ∀ q ∈ (S.visit p s e).items, Q q := by
      intro Q hQ hx q hq
      rw [hi] at hq
      rcases List.mem_append.mp hq with hq | hq
      · exact hQ q hq
      · rw [List.mem_singleton.mp hq]; exact hx
    have hold : ∀ q ∈ s.items, q ∈ (S.visit p s e).items := by
      intro q hq
      rw [hi]; exact List.mem_append_left _ hq
    refine ⟨⟨?_, ?_, ?_, hold root h.root_mem, ?_, ?_, ?_, ?_⟩, hnew hw hlen.le⟩
    · intro v
      rw [hi, hv]
      simp only [Finset.mem_insert, h.used v, List.mem_append, List.mem_singleton]
      constructor
      · rintro (rfl | ⟨q, hq, hk⟩)
        · exact ⟨_, Or.inr rfl, S.key_extend p e⟩
        · exact ⟨q, Or.inl hq, hk⟩
      · rintro ⟨q, hq | rfl, hk⟩
        · exact Or.inr ⟨q, hq, hk⟩
        · exact Or.inl (hk.symm.trans (S.key_extend p e))
    · rw [hi, List.map_append]
      refine List.Nodup.append h.nodup (List.nodup_singleton _) ?_
      intro v hv hx
      obtain ⟨q, hq, hk⟩ := List.mem_map.mp hv
      rw [List.map_singleton, List.mem_singleton, S.key_extend] at hx
      exact hu ((h.used _).mpr ⟨q, hq, hk.trans hx⟩)
    · exact hnew h.built ((h.built p hpi).extend he)
    · rw [visit_done]
      exact hnew h.parent (Or.inr ⟨p, hp, e, he, rfl⟩)
    · have hmono : ∀ v ∈ s.used, v ∈ (S.visit p s e).used := by
        intro v hm
        rw [hv]; exact Finset.mem_insert_of_mem hm
      refine hnew (fun q hq => ⟨(h.simple q hq).1, fun v hm => hmono v ((h.simple q hq).2 v hm)⟩) ?_
      rw [S.trail_extend]
      refine ⟨List.nodup_cons.mpr ⟨fun hm => hu ((h.simple p hpi).2 _ hm), (h.simple p hpi).1⟩, ?_⟩
      intro v hm
      rcases List.mem_cons.mp hm with rfl | hm
      · rw [hv]; exact Finset.mem_insert_self _ _
      · exact hmono v ((h.simple p hpi).2 v hm)
    · rw [hi]
      refine List.pairwise_append.mpr ⟨h.sorted, List.pairwise_singleton _ _, ?_⟩
      intro q hq r hr
      rw [List.mem_singleton.mp hr, hlen]
      exact hw q hq
    · intro q hq e' he'
      rw [visit_done] at hq
      rcases h.closed q hq e' he' with ⟨rfl, hm⟩ | ⟨r, hr, hk⟩
      · rcases List.mem_cons.mp hm with rfl | hm
        · refine Or.inr ⟨_, ?_, S.key_extend q e', hlen.le⟩
          rw [hi]; exact List.mem_append_right _ (List.mem_singleton_self _)
        · exact Or.inl ⟨rfl, hm⟩
      · exact Or.inr ⟨r, hold r hr, hk⟩

theorem Inv.visits {todo : List E} (h : S.Inv root p todo s) (hp : p ∈ s.done)
    (ht : ∀ e ∈ todo, e ∈ S.out (S.key p))
    (hw : ∀ q ∈ s.items, (S.trail q).length ≤ (S.trail p).length + 1) :
    S.Inv root p [] (todo.foldl (S.visit p) s) ∧
      ∀ q ∈ (todo.foldl (S.visit p) s).items, (S.trail q).length ≤ (S.trail p).length + 1 := by
  induction todo generalizing s with
  | nil => exact ⟨h, hw⟩
  | cons e todo ih =>
    obtain ⟨hi, hw'⟩ := h.visit hp (ht e (by simp)) hw
    exact ih hi (by rwa [visit_done]) (fun e' he' => ht e' (List.mem_cons_of_mem _ he')) hw'

/-- What holds between two turns of the loop. -/
def Settled (S : Search V E P) (root : P) (s : State V P) : Prop :=
  S.Inv root root [] s ∧
    ∀ p ∈ s.queue, ∀ q ∈ s.items, (S.trail q).length ≤ (S.trail p).length + 1

theorem Inv.recur {q : P} (h : S.Inv root p [] s) : S.Inv root q [] s :=
  { h with closed := fun r hr e he => (h.closed r hr e he).imp_left (fun hm => by simp at hm) }

theorem settled_start (hroot : S.trail root = [S.key root]) : S.Settled root (S.start root) := by
  refine ⟨⟨?_, ?_, ?_, ?_, ?_, ?_, ?_, ?_⟩, ?_⟩ <;> rw [start_items]
  · intro v
    simp [start, eq_comm]
  · simp
  · simpa using Built.root
  · simp
  · simp
  · simp [hroot, start]
  · simp
  · simp [start]
  · simp [start]

theorem Settled.expand (h : S.Settled root s) : S.Settled root (S.expand s) := by
  obtain ⟨hi, hw⟩ := h
  unfold Search.expand
  cases hq : s.queue with
  | nil => exact ⟨hi, hw⟩
  | cons p rest =>
    dsimp only
    set s' : State V P := { s with queue := rest, done := s.done ++ [p] }
    have hitems : s'.items = s.items := by simp [s', State.items, hq]
    have hp : p ∈ s'.done := List.mem_append_right _ (List.mem_singleton_self p)
    have hsub : ∀ q ∈ s.done, q ∈ s'.done := fun q hm => List.mem_append_left _ hm
    have hs' : S.Inv root p (S.out (S.key p)) s' := by
      refine ⟨?_, ?_, ?_, ?_, ?_, ?_, ?_, ?_⟩
      · rw [hitems]; exact hi.used
      · rw [hitems]; exact hi.nodup
      · rw [hitems]; exact hi.built
      · rw [hitems]; exact hi.root_mem
      · rw [hitems]
        intro q hm
        refine (hi.parent q hm).imp_right ?_
        rintro ⟨r, hr, e, he, hqe⟩
        exact ⟨r, hsub r hr, e, he, hqe⟩
      · rw [hitems]; exact hi.simple
      · rw [hitems]; exact hi.sorted
      · rw [hitems]
        intro q hm e he
        rcases List.mem_append.mp hm with hm | hm
        · exact (hi.closed q hm e he).imp_left (fun h => by simp at h)
        · obtain rfl := List.mem_singleton.mp hm
          exact Or.inl ⟨rfl, he⟩
    have hw' : ∀ q ∈ s'.items, (S.trail q).length ≤ (S.trail p).length + 1 := by
      rw [hitems]
      exact hw p (by simp [hq])
    obtain ⟨hf, hwf⟩ := hs'.visits hp (fun e he => he) hw'
    refine ⟨hf.recur, ?_⟩
    intro q hqm r hrm
    have hle : (S.trail p).length ≤ (S.trail q).length := by
      have hpd : p ∈ ((S.out (S.key p)).foldl (S.visit p) s').done := by
        rw [List.foldlRecOn (S.out (S.key p)) (S.visit p)
          (motive := fun t => t.done = s'.done) rfl
          (fun t ht e _ => (visit_done p t e).trans ht)]
        exact hp
      exact (List.pairwise_append.mp hf.sorted).2.2 p hpd q hqm
    have := hwf r hrm
    omega

theorem Settled.iterate (h : S.Settled root s) (n : ℕ) : S.Settled root (S.expand^[n] s) := by
  induction n generalizing s with
  | zero => exact h
  | succ n ih => exact ih h.expand

theorem visit_measure {U : Finset V} {e : E} (hU : S.target e ∈ U) :
    (S.visit p s e).queue.length + (U \ (S.visit p s e).used).card =
      s.queue.length + (U \ s.used).card := by
  by_cases hu : S.target e ∈ s.used
  · rw [show S.visit p s e = s from if_pos hu]
  · rw [show S.visit p s e = { s with used := insert (S.target e) s.used,
                                      queue := s.queue ++ [S.extend p e] } from if_neg hu]
    have hm : S.target e ∈ U \ s.used := Finset.mem_sdiff.mpr ⟨hU, hu⟩
    have hc := Finset.card_erase_add_one hm
    have he : U \ insert (S.target e) s.used = (U \ s.used).erase (S.target e) := by
      rw [Finset.sdiff_insert]
    simp only [he, List.length_append, List.length_singleton]
    omega

theorem expand_measure {U : Finset V} (hU : ∀ v, ∀ e ∈ S.out v, S.target e ∈ U)
    (hq : s.queue ≠ []) :
    (S.expand s).queue.length + (U \ (S.expand s).used).card + 1 =
      s.queue.length + (U \ s.used).card := by
  obtain ⟨p, rest, hp⟩ := List.exists_cons_of_ne_nil hq
  set s' : State V P := { s with queue := rest, done := s.done ++ [p] }
  have he : S.expand s = (S.out (S.key p)).foldl (S.visit p) s' := by
    unfold expand
    rw [hp]
  have hf : ((S.expand s).queue.length + (U \ (S.expand s).used).card =
      s'.queue.length + (U \ s'.used).card) := by
    rw [he]
    exact List.foldlRecOn (S.out (S.key p)) (S.visit p)
      (motive := fun t => t.queue.length + (U \ t.used).card = s'.queue.length + (U \ s'.used).card)
      rfl (fun t ht e hm => (visit_measure (hU _ e hm)).trans ht)
  rw [hf, hp]
  simp only [s', List.length_cons]
  omega

theorem expand_empty (hq : s.queue = []) : S.expand s = s := by
  unfold expand
  rw [hq]

/-- The loop comes to an empty queue once it has had a turn for the start and for every vertex. -/
theorem iterate_queue {U : Finset V} (hU : ∀ v, ∀ e ∈ S.out v, S.target e ∈ U) (n : ℕ)
    (hn : s.queue.length + (U \ s.used).card ≤ n) : (S.expand^[n] s).queue = [] := by
  induction n generalizing s with
  | zero => exact List.eq_nil_of_length_eq_zero (show s.queue.length = 0 by omega)
  | succ n ih =>
    by_cases hq : s.queue = []
    · rwa [Function.iterate_fixed (expand_empty hq)]
    · have hm := expand_measure hU hq
      exact ih (by omega)

/-- A finished search: one item for each vertex a walk leads to, none longer than the walk. -/
structure Complete (S : Search V E P) (root : P) (items : List P) : Prop where
  root_mem : root ∈ items
  nodup : (items.map S.key).Nodup
  built : ∀ q ∈ items, S.Built root q
  parent : ∀ q ∈ items, q = root ∨ ∃ r ∈ items, ∃ e ∈ S.out (S.key r), q = S.extend r e
  simple : ∀ q ∈ items, (S.trail q).Nodup
  shortest : ∀ n v, S.Walk (S.key root) n v →
    ∃ q ∈ items, S.key q = v ∧ (S.trail q).length ≤ n + 1

theorem Settled.complete (hroot : S.trail root = [S.key root]) (h : S.Settled root s)
    (hq : s.queue = []) : S.Complete root s.done := by
  obtain ⟨hi, -⟩ := h
  have hitems : s.items = s.done := by rw [State.items, hq, List.append_nil]
  rw [← hitems]
  refine ⟨hi.root_mem, hi.nodup, hi.built, ?_, fun q hm => (hi.simple q hm).1, ?_⟩
  · simpa only [hitems] using hi.parent
  · intro n v hw
    induction hw with
    | nil => exact ⟨root, hi.root_mem, rfl, by simp [hroot]⟩
    | @snoc n u e hw he ih =>
      obtain ⟨q, hqm, rfl, hlen⟩ := ih
      rcases hi.closed q (hitems ▸ hqm) e he with ⟨-, hn⟩ | ⟨r, hr, hk, hl⟩
      · simp at hn
      · exact ⟨r, hr, hk, by omega⟩

theorem search_complete (hroot : S.trail root = [S.key root]) {U : Finset V}
    (hU : ∀ v, ∀ e ∈ S.out v, S.target e ∈ U) {n : ℕ} (hn : U.card + 1 ≤ n) :
    (S.expand^[n] (S.start root)).queue = [] ∧
      S.Complete root (S.expand^[n] (S.start root)).done := by
  have hc := Finset.card_le_card (Finset.sdiff_subset (s := U) (t := {S.key root}))
  have hq : (S.expand^[n] (S.start root)).queue = [] := by
    apply iterate_queue hU
    simp only [start, List.length_singleton]
    omega
  exact ⟨hq, ((settled_start hroot).iterate n).complete hroot hq⟩

end Search

end BreadthFirst
