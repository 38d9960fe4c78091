import Mathlib

namespace MessageFraming

structure Framer (β : Type) where
  header : ℕ
  size : List β → ℕ
  size_append : ∀ xs ys, header ≤ xs.length → size (xs ++ ys) = size xs

namespace Framer

variable {β : Type} {F : Framer β} {xs ys m t rest : List β} {ms : List (List β)} {P : ℕ → Prop}

def Message (F : Framer β) (m : List β) : Prop := F.header ≤ m.length ∧ F.size m = m.length

def Incomplete (F : Framer β) (t : List β) : Prop :=
  F.header ≤ t.length → F.header ≤ F.size t ∧ t.length < F.size t

structure Frames (F : Framer β) (xs : List β) (ms : List (List β)) (t : List β) : Prop where
  spells : xs = ms.flatten ++ t
  messages : ∀ m ∈ ms, F.Message m
  tail : F.Incomplete t

/-- Following the announced sizes, every complete header that is met announces a size with `P`. -/
def Announces (F : Framer β) (P : ℕ → Prop) (xs : List β) : Prop :=
  ∀ (ms : List (List β)) (rest : List β), xs = ms.flatten ++ rest → (∀ m ∈ ms, F.Message m) →
    F.header ≤ rest.length → P (F.size rest)

def Sound (F : Framer β) (xs : List β) : Prop := F.Announces (fun n => F.header ≤ n) xs

theorem Message.size_append (hm : F.Message m) (xs : List β) : F.size (m ++ xs) = m.length := by
  rw [F.size_append _ _ hm.1]
  exact hm.2

theorem Announces.take (hs : F.Announces P (xs ++ ys)) : F.Announces P xs := by
  intro ms rest hx hm hr
  rw [← F.size_append rest ys hr]
  apply hs ms (rest ++ ys)
  · rw [hx, List.append_assoc]
  · exact hm
  · rw [List.length_append]
    omega

theorem Announces.drop_flatten (hs : F.Announces P (ms.flatten ++ xs)) (hm : ∀ m ∈ ms, F.Message m) :
    F.Announces P xs := by
  intro ms' rest hx hms' hr
  apply hs (ms ++ ms') rest
  · rw [hx, List.flatten_append, List.append_assoc]
  · exact List.forall_mem_append.2 ⟨hm, hms'⟩
  · exact hr

theorem Announces.drop (hs : F.Announces P (m ++ xs)) (hm : F.Message m) : F.Announces P xs := by
  have hone : F.Announces P ([m].flatten ++ xs) := by
    rw [List.flatten_singleton]
    exact hs
  exact hone.drop_flatten (List.forall_mem_singleton.2 hm)

theorem Announces.mono {Q : ℕ → Prop} (hs : F.Announces P xs) (hpq : ∀ n, P n → Q n) : F.Announces Q xs :=
  fun ms rest hx hm hr => hpq _ (hs ms rest hx hm hr)

theorem Frames.nil (ht : F.Incomplete t) : F.Frames t [] t := ⟨rfl, List.forall_mem_nil _, ht⟩

theorem Frames.cons (hm : F.Message m) (hf : F.Frames xs ms t) : F.Frames (m ++ xs) (m :: ms) t :=
  ⟨by rw [hf.spells, List.flatten_cons, List.append_assoc], List.forall_mem_cons.2 ⟨hm, hf.messages⟩, hf.tail⟩

theorem Frames.append {ms' : List (List β)} {t' : List β} (hf : F.Frames xs ms t)
    (hg : F.Frames (t ++ ys) ms' t') : F.Frames (xs ++ ys) (ms ++ ms') t' := by
  refine ⟨?_, List.forall_mem_append.2 ⟨hf.messages, hg.messages⟩, hg.tail⟩
  rw [hf.spells, List.append_assoc, hg.spells, List.flatten_append, List.append_assoc]

theorem Frames.first (hm : F.Message m) (hf : F.Frames (m ++ xs) ms t) :
    ∃ ms', ms = m :: ms' ∧ F.Frames xs ms' t := by
  obtain ⟨hx, hms, ht⟩ := hf
  cases ms with
  | nil =>
    have hlen : (m ++ xs).length = t.length := congrArg List.length hx
    have hsize : F.size t = m.length := by
      rw [← hm.size_append xs, hx]
      rfl
    rw [List.length_append] at hlen
    have hge := hm.1
    have hlt := (ht (by omega)).2
    omega
  | cons m' ms' =>
    obtain ⟨hm', hms'⟩ := List.forall_mem_cons.1 hms
    rw [List.flatten_cons, List.append_assoc] at hx
    have hsize : m.length = m'.length := by
      rw [← hm.size_append xs, ← hm'.size_append (ms'.flatten ++ t), hx]
    obtain ⟨rfl, rfl⟩ := List.append_inj hx hsize
    exact ⟨ms', rfl, rfl, hms', ht⟩

theorem Frames.after {ms' : List (List β)} (hf : F.Frames (ms'.flatten ++ xs) ms t)
    (hm : ∀ m ∈ ms', F.Message m) : ∃ ms'', ms = ms' ++ ms'' ∧ F.Frames xs ms'' t := by
  induction ms' generalizing ms with
  | nil => exact ⟨ms, rfl, hf⟩
  | cons m ms' ih =>
    obtain ⟨hfirst, hothers⟩ := List.forall_mem_cons.1 hm
    rw [List.flatten_cons, List.append_assoc] at hf
    obtain ⟨ms₁, rfl, hf₁⟩ := hf.first hfirst
    obtain ⟨ms₂, rfl, hf₂⟩ := ih hf₁ hothers
    exact ⟨ms₂, rfl, hf₂⟩

theorem Frames.announces (hf : F.Frames xs ms t) (hP : ∀ m ∈ ms, P m.length)
    (ht : F.header ≤ t.length → P (F.size t)) : F.Announces P xs := by
  intro ms' rest hx hm hr
  subst hx
  obtain ⟨ms'', rfl, hx, hms, -⟩ := hf.after hm
  cases ms'' with
  | nil =>
    rw [List.flatten_nil, List.nil_append] at hx
    subst hx
    exact ht hr
  | cons m ms'' =>
    rw [hx, List.flatten_cons, List.append_assoc, (hms m List.mem_cons_self).size_append]
    exact hP m (List.mem_append_right _ List.mem_cons_self)

theorem Frames.sound (hf : F.Frames xs ms t) : F.Sound xs :=
  hf.announces (fun m hm => (hf.messages m hm).1) (fun hr => (hf.tail hr).1)

theorem Frames.unique {ms' : List (List β)} {t' : List β} (hf : F.Frames xs ms t) (hg : F.Frames xs ms' t') :
    ms = ms' ∧ t = t' := by
  obtain ⟨ms'', rfl, hx, hms, ht⟩ := Frames.after (hf.spells ▸ hg) hf.messages
  cases ms'' with
  | nil => exact ⟨(List.append_nil _).symm, hx⟩
  | cons m ms'' =>
    have hnil := Frames.nil hf.tail
    nth_rewrite 1 [hx] at hnil
    rw [List.flatten_cons, List.append_assoc] at hnil
    obtain ⟨_, hne, -⟩ := hnil.first (hms m List.mem_cons_self)
    exact absurd hne (List.cons_ne_nil _ _).symm

theorem Frames.of_messages (hF : 0 < F.header) (hm : ∀ m ∈ ms, F.Message m) : F.Frames ms.flatten ms [] := by
  refine ⟨(List.append_nil _).symm, hm, ?_⟩
  intro hl
  rw [List.length_nil] at hl
  omega

theorem Message.of_take (hh : F.header ≤ F.size xs) (hl : F.size xs ≤ xs.length) :
    F.Message (xs.take (F.size xs)) := by
  have hlen : (xs.take (F.size xs)).length = F.size xs := by
    rw [List.length_take]
    omega
  refine ⟨by omega, ?_⟩
  rw [hlen, ← F.size_append _ (xs.drop (F.size xs)) (by omega), List.take_append_drop]

end Framer

end MessageFraming
