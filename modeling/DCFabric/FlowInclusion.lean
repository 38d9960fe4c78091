import DCFabric.FlowRefinement

namespace DCFabric

/-- The header fields a packet has. -/
abbrev Packet := (f : OxmField) → Option (BitVec (8 * f.size))

def gn_oxm_t.accepts (oxm : gn_oxm_t) (packet : Packet) : Prop :=
  ∀ f ∈ oxm.matches_on, ∃ value ∈ packet f, value &&& oxm.fieldMask f = oxm.field f &&& oxm.fieldMask f

namespace gn_oxm_t

variable {n : ℕ} {x y m m' : BitVec n}

theorem flipped_and : (x ^^^ ~~~m) &&& m = x &&& m := by
  apply BitVec.eq_of_getLsbD_eq
  intro i hi
  simp only [BitVec.getLsbD_and, BitVec.getLsbD_xor, BitVec.getLsbD_not, hi, decide_true, Bool.true_and]
  cases m.getLsbD i <;> simp

/-- If free bits of `m` do not matter under `m'`, then `m` leaves no bit of `m'` free. -/
theorem and_eq_of_flipped (h : (x ^^^ ~~~m) &&& m' = x &&& m') : m &&& m' = m' := by
  apply BitVec.eq_of_getLsbD_eq
  intro i hi
  have hbit := congrArg (BitVec.getLsbD · i) h
  simp only [BitVec.getLsbD_and, BitVec.getLsbD_xor, BitVec.getLsbD_not, hi, decide_true, Bool.true_and] at hbit ⊢
  cases hm : m.getLsbD i with
  | true => rfl
  | false =>
    cases hm' : m'.getLsbD i with
    | false => rfl
    | true =>
      rw [hm, hm'] at hbit
      cases hx : x.getLsbD i <;> simp [hx] at hbit

/-- The packet with the values of the match, and every bit that is free flipped if `flip`. -/
def packet (oxm : gn_oxm_t) (flip : Bool) : Packet := fun f =>
  if f ∈ oxm.matches_on then some (if flip then oxm.field f ^^^ ~~~oxm.fieldMask f else oxm.field f) else none

theorem accepts_packet (oxm : gn_oxm_t) (flip : Bool) : oxm.accepts (oxm.packet flip) := by
  intro f hf
  refine ⟨_, if_pos hf, ?_⟩
  split_ifs
  · exact flipped_and
  · rfl

theorem exists_of_accepts_packet {oxm oxm' : gn_oxm_t} {flip : Bool} (h : oxm'.accepts (oxm.packet flip)) {f : OxmField}
    (hf : f ∈ oxm'.matches_on) : f ∈ oxm.matches_on ∧
      (if flip then oxm.field f ^^^ ~~~oxm.fieldMask f else oxm.field f) &&& oxm'.fieldMask f =
        oxm'.field f &&& oxm'.fieldMask f := by
  obtain ⟨value, hvalue, heq⟩ := h f hf
  by_cases hmem : f ∈ oxm.matches_on
  · rw [packet, if_pos hmem] at hvalue
    obtain rfl := Option.some.inj hvalue
    exact ⟨hmem, heq⟩
  · rw [packet, if_neg hmem] at hvalue
    cases hvalue

end gn_oxm_t

namespace CFlow

variable {e flow : CFlow}

/-- Every packet that the match of `e` accepts is accepted by that of the flow. -/
def Includes (flow e : CFlow) : Prop :=
  ∀ packet, e.m_match.oxm_fields.accepts packet → flow.m_match.oxm_fields.accepts packet

theorem includes_iff : flow.Includes e ↔ flow.Overlaps e ∧ flow.Covers e := by
  constructor
  · intro h
    have hplain := h _ (e.m_match.oxm_fields.accepts_packet false)
    have hflipped := h _ (e.m_match.oxm_fields.accepts_packet true)
    have hoverlaps : flow.Overlaps e := fun f hf => gn_oxm_t.exists_of_accepts_packet hplain hf
    refine ⟨hoverlaps, fun f hf => ?_⟩
    apply gn_oxm_t.and_eq_of_flipped
    exact (gn_oxm_t.exists_of_accepts_packet hflipped hf).2.trans (hoverlaps f hf).2.symm
  · rintro ⟨hoverlaps, hcovers⟩ packet haccepts f hf
    obtain ⟨hmem, hvalue⟩ := hoverlaps f hf
    obtain ⟨value, hpacket, heq⟩ := haccepts f hmem
    refine ⟨value, hpacket, ?_⟩
    calc value &&& flow.m_match.oxm_fields.fieldMask f
        = value &&& e.m_match.oxm_fields.fieldMask f &&& flow.m_match.oxm_fields.fieldMask f :=
          (and_of_covers (hcovers f hf)).symm
      _ = e.m_match.oxm_fields.field f &&& flow.m_match.oxm_fields.fieldMask f := by
          rw [heq, and_of_covers (hcovers f hf)]
      _ = flow.m_match.oxm_fields.field f &&& flow.m_match.oxm_fields.fieldMask f := hvalue

theorem matchFlow_trans {c : CFlow} (h : e.matchFlow flow) (h' : flow.matchFlow c) : e.matchFlow c := by
  obtain ⟨hsw, ht, ho, hb⟩ := matchFlow_iff.mp h
  obtain ⟨hsw', ht', ho', hb'⟩ := matchFlow_iff.mp h'
  refine matchFlow_iff.mpr ⟨hsw.trans hsw', ht.trans ht', fun f hf => ?_, fun f hf => ?_⟩
  · obtain ⟨hmem, hvalue⟩ := ho' f hf
    obtain ⟨-, -, heq⟩ := hb f hmem
    exact ⟨(ho f hmem).1, heq ▸ hvalue⟩
  · obtain ⟨hmem, -⟩ := ho' f hf
    obtain ⟨hsha, htha, heq⟩ := hb' f hf
    exact ⟨hsha, htha, (hb f hmem).2.2.trans heq⟩

theorem matchFlow_iff_of_matchStrict (h : e.matchStrict flow) :
    e.matchFlow flow ↔ ∀ f ∈ flow.m_match.oxm_fields.matches_on, f ≠ .arp_sha ∧ f ≠ .arp_tha := by
  obtain ⟨hsw, -, -, -, ht, hmatch⟩ := matchStrict_iff.mp h
  rw [matchFlow_iff]
  constructor
  · rintro ⟨-, -, -, hb⟩ f hf
    exact ⟨(hb f hf).1, (hb f hf).2.1⟩
  · intro harp
    refine ⟨hsw, ht, fun f hf => ?_, fun f hf => ⟨(harp f hf).1, (harp f hf).2, ?_⟩⟩
    · rw [hmatch]
      exact ⟨hf, rfl⟩
    · rw [hmatch]

theorem matchFlow_includes_iff (e flow : CFlow) (hsw : e.m_sw = flow.m_sw) (ht : e.m_table_id = flow.m_table_id) :
    ((e.matchFlow flow ↔ flow.Includes e) ↔ (flow.Overlaps e → (flow.SameBytes e ↔ flow.Covers e))) ∧
      (e.matchStrict flow → (e.matchFlow flow ↔
        ∀ f ∈ flow.m_match.oxm_fields.matches_on, f ≠ .arp_sha ∧ f ≠ .arp_tha)) ∧
      ∀ c : CFlow, e.matchFlow flow → flow.matchFlow c → e.matchFlow c := by
  refine ⟨?_, matchFlow_iff_of_matchStrict, fun c => matchFlow_trans⟩
  rw [matchFlow_iff, includes_iff]
  constructor
  · intro h hoverlaps
    constructor
    · intro hb
      exact (h.mp ⟨hsw, ht, hoverlaps, hb⟩).2
    · intro hc
      exact (h.mpr ⟨hoverlaps, hc⟩).2.2.2
  · intro h
    constructor
    · rintro ⟨-, -, hoverlaps, hb⟩
      exact ⟨hoverlaps, (h hoverlaps).mp hb⟩
    · rintro ⟨hoverlaps, hc⟩
      exact ⟨hsw, ht, hoverlaps, (h hoverlaps).mpr hc⟩

/-- A flow that matches on a sender's hardware address. -/
def arpSenderFlow : CFlow :=
  ⟨⟨1, 1⟩, [], 0, 0, 0, 0, 0, ⟨1, ⟨fun _ => 0, MASK_SET <<< OxmField.arp_sha.bit⟩⟩, .empty⟩

theorem arpSenderFlow_matches : ((arpSenderFlow.matchFlow arpSenderFlow ↔ arpSenderFlow.Includes arpSenderFlow) ↔
      (arpSenderFlow.Overlaps arpSenderFlow → (arpSenderFlow.SameBytes arpSenderFlow ↔
        arpSenderFlow.Covers arpSenderFlow))) ∧
      (arpSenderFlow.matchStrict arpSenderFlow → (arpSenderFlow.matchFlow arpSenderFlow ↔
        ∀ f ∈ arpSenderFlow.m_match.oxm_fields.matches_on, f ≠ .arp_sha ∧ f ≠ .arp_tha)) ∧
      ∀ c : CFlow, arpSenderFlow.matchFlow arpSenderFlow → arpSenderFlow.matchFlow c → arpSenderFlow.matchFlow c :=
  matchFlow_includes_iff arpSenderFlow arpSenderFlow rfl rfl

theorem arpSenderFlow_not_included : ¬ ∀ e flow : CFlow, e.m_sw = flow.m_sw → e.m_table_id = flow.m_table_id →
    (e.matchFlow flow ↔ flow.Includes e) := by
  intro h
  have hmatch := (h arpSenderFlow arpSenderFlow rfl rfl).mpr fun _ haccepts => haccepts
  exact absurd hmatch (by decide)

end CFlow

end DCFabric
