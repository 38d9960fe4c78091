import DCFabric.TlvRecords

namespace TlvStreams

section

variable {size used : ℕ} {bytes : List UInt8} {t : Tlv} {ts us vs ws : List Tlv}

/-- The TLVs as they lie in a buffer. -/
def image (ts : List Tlv) : List UInt8 := (ts.map Tlv.written).flatMap Tlv.bytes

/-- A buffer of which `used` bytes are used has room for the TLVs, one after the other. -/
def HasRoom (size used : ℕ) : List Tlv → Prop
  | [] => True
  | t :: ts => used + 4 + t.value.length ≤ size ∧ HasRoom size (used + 4 + t.written.value.length) ts

theorem image_cons : image (t :: ts) = t.written.bytes ++ image ts := List.flatMap_cons

theorem image_append : image (us ++ vs) = image us ++ image vs := by
  simp [image]

theorem length_image_cons : (image (t :: ts)).length = 4 + t.written.value.length + (image ts).length := by
  rw [image_cons, List.length_append, Tlv.length_bytes]

theorem fill_of_hasRoom (h : HasRoom size bytes.length us) :
    fill size bytes (us ++ vs) = fill size (bytes ++ image us) vs := by
  induction us generalizing bytes with
  | nil => simp [image]
  | cons t us ih =>
    obtain ⟨ht, hus⟩ := h
    have hlen : (bytes ++ t.written.bytes).length = bytes.length + 4 + t.written.value.length := by
      rw [List.length_append, Tlv.length_bytes, Nat.add_assoc]
    rw [List.cons_append, fill, if_neg (by omega), ih (by rwa [hlen]), image_cons, List.append_assoc]

theorem fill_of_no_room (h : ∀ t ∈ vs.head?, size < bytes.length + 4 + t.value.length) :
    (fill size bytes vs).1 = bytes := by
  cases vs with
  | nil => rfl
  | cons t vs => rw [fill, if_pos (h t rfl)]

/-- The TLVs that are written, and those from the first on for which there is no room. -/
theorem exists_cut (size used : ℕ) (ts : List Tlv) : ∃ us vs, ts = us ++ vs ∧ HasRoom size used us ∧
    ∀ t ∈ vs.head?, size < used + (image us).length + 4 + t.value.length := by
  induction ts generalizing used with
  | nil => exact ⟨[], [], rfl, trivial, by simp⟩
  | cons t ts ih =>
    by_cases ht : used + 4 + t.value.length ≤ size
    · obtain ⟨us, vs, rfl, hus, hvs⟩ := ih (used + 4 + t.written.value.length)
      refine ⟨t :: us, vs, rfl, ⟨ht, hus⟩, ?_⟩
      intro u hu
      have hlen : (image (t :: us)).length = _ := length_image_cons
      have := hvs u hu
      omega
    · refine ⟨[], t :: ts, rfl, trivial, ?_⟩
      rintro u ⟨⟩
      simp only [image, List.map_nil, List.flatMap_nil, List.length_nil]
      omega

/-- TLVs that lie in as many bytes of the same list are the same. -/
theorem eq_of_length_image (h : us ++ vs = ws ++ ts) (hlen : (image us).length = (image ws).length) :
    us = ws ∧ vs = ts := by
  induction us generalizing ws with
  | nil =>
    cases ws with
    | nil => exact ⟨rfl, h⟩
    | cons w ws =>
      rw [length_image_cons] at hlen
      simp only [image, List.map_nil, List.flatMap_nil, List.length_nil] at hlen
      omega
  | cons u us ih =>
    cases ws with
    | nil =>
      rw [length_image_cons] at hlen
      simp only [image, List.map_nil, List.flatMap_nil, List.length_nil] at hlen
      omega
    | cons w ws =>
      obtain ⟨rfl, hrest⟩ := List.cons.inj h
      rw [length_image_cons, length_image_cons] at hlen
      obtain ⟨rfl, hvs⟩ := ih hrest (by omega)
      exact ⟨rfl, hvs⟩

/-- Up to its first `n` records, the buffer has room for the records, and then not for the record that follows. -/
def CutAfter (size : ℕ) (records : List (List Tlv)) (n : ℕ) : Prop :=
  HasRoom size 0 (records.take n).flatten ∧ ∀ t ∈ (records.drop n).flatten.head?,
    size < (image (records.take n).flatten).length + 4 + t.value.length

/-- What is written are whole records if and only if the first TLV without room begins a record. -/
theorem fill_records_iff (size : ℕ) (records : List (List Tlv)) (n : ℕ) :
    (fill size [] records.flatten).1 = image (records.take n).flatten ↔ CutAfter size records n := by
  have hsplit : records.flatten = (records.take n).flatten ++ (records.drop n).flatten := by
    rw [← List.flatten_append, List.take_append_drop]
  constructor
  · intro h
    obtain ⟨us, vs, hts, hus, hvs⟩ := exists_cut size 0 records.flatten
    have hfill : (fill size [] records.flatten).1 = image us := by
      rw [hts, fill_of_hasRoom hus, List.nil_append]
      apply fill_of_no_room
      intro t ht
      have := hvs t ht
      omega
    obtain ⟨rfl, rfl⟩ := eq_of_length_image (hts.symm.trans hsplit) (congrArg List.length (hfill.symm.trans h))
    refine ⟨hus, fun t ht => ?_⟩
    have := hvs t ht
    omega
  · rintro ⟨hroom, hnext⟩
    rw [hsplit, fill_of_hasRoom hroom, List.nil_append]
    exact fill_of_no_room hnext

theorem hasRoom_iff (h : ∀ t ∈ ts, t.written = t) : HasRoom size used ts ↔ ts = [] ∨
    used + (image ts).length ≤ size := by
  induction ts generalizing used with
  | nil => simp [HasRoom]
  | cons t ts ih =>
    obtain ⟨ht, hts⟩ := List.forall_mem_cons.mp h
    rw [HasRoom, ih hts, length_image_cons, ht]
    simp only [List.cons_ne_nil, false_or]
    constructor
    · rintro ⟨hroom, rfl | hrest⟩
      · simpa [image, Nat.add_assoc] using hroom
      · omega
    · intro hroom
      exact ⟨by omega, .inr (by omega)⟩

theorem length_image_flatten {s : ℕ} {records : List (List Tlv)} (h : ∀ record ∈ records, (image record).length = s) :
    (image records.flatten).length = records.length * s := by
  induction records with
  | nil => simp [image]
  | cons record records ih =>
    obtain ⟨hrecord, hrecords⟩ := List.forall_mem_cons.mp h
    rw [List.flatten_cons, image_append, List.length_append, hrecord, ih hrecords, List.length_cons, Nat.succ_mul,
      Nat.add_comm]

/-- Records of `s` bytes that begin with a TLV of `f` bytes. -/
structure Uniform (records : List (List Tlv)) (s f : ℕ) : Prop where
  written : ∀ record ∈ records, ∀ t ∈ record, t.written = t
  size : ∀ record ∈ records, (image record).length = s
  first : ∀ record ∈ records, ∃ t ts, record = t :: ts ∧ 4 + t.value.length = f

/-- Records of one size are cut in between unless what is left of the buffer is too small for their first TLV. -/
theorem Uniform.cutAfter_iff {s f : ℕ} {records : List (List Tlv)} (h : Uniform records s f) :
    (∃ n, CutAfter size records n) ↔ records.length * s ≤ size ∨ size % s < f := by
  have hlen (n : ℕ) : (image (records.take n).flatten).length = min n records.length * s := by
    rw [length_image_flatten fun record hrecord => h.size record (List.mem_of_mem_take hrecord), List.length_take]
  have hroom (n : ℕ) : HasRoom size 0 (records.take n).flatten ↔
      (records.take n).flatten = [] ∨ min n records.length * s ≤ size := by
    rw [hasRoom_iff, hlen, Nat.zero_add]
    intro t ht
    obtain ⟨record, hrecord, ht⟩ := List.mem_flatten.mp ht
    exact h.written record (List.mem_of_mem_take hrecord) t ht
  have hnext {n : ℕ} (hn : n < records.length) :
      ∃ t, (records.drop n).flatten.head? = some t ∧ 4 + t.value.length = f := by
    obtain ⟨t, ts, hrecord, ht⟩ := h.first records[n] (List.getElem_mem hn)
    refine ⟨t, ?_, ht⟩
    rw [List.drop_eq_getElem_cons hn, hrecord]
    rfl
  constructor
  · rintro ⟨n, hfits, hfirst⟩
    rw [hlen] at hfirst
    have hle : min n records.length * s ≤ size := by
      rcases (hroom n).mp hfits with hnil | hle
      · have hzero := hlen n
        rw [hnil] at hzero
        rw [← hzero]
        exact Nat.zero_le size
      · exact hle
    by_cases hn : n < records.length
    · obtain ⟨t, ht, hf⟩ := hnext hn
      have hlt := hfirst t ht
      rw [Nat.min_eq_left hn.le] at hle hlt
      right
      have hmod : size % s ≤ size - n * s := by
        rw [Nat.mul_comm] at hle ⊢
        rw [← Nat.sub_mul_mod hle]
        exact Nat.mod_le _ _
      omega
    · rw [Nat.min_eq_right (Nat.not_lt.mp hn)] at hle
      exact .inl hle
  · intro hcut
    by_cases hall : records.length * s ≤ size
    · refine ⟨records.length, (hroom _).mpr (.inr ?_), ?_⟩
      · rwa [Nat.min_self]
      · simp
    · have hmod := hcut.resolve_left hall
      have hdiv := Nat.div_add_mod' size s
      have hn : size / s < records.length := by
        by_contra hge
        exact hall ((Nat.mul_le_mul_right s (Nat.not_lt.mp hge)).trans (Nat.div_mul_le_self size s))
      refine ⟨size / s, (hroom _).mpr (.inr ?_), ?_⟩
      · rw [Nat.min_eq_left hn.le]
        exact Nat.div_mul_le_self size s
      · obtain ⟨t, ht, hf⟩ := hnext hn
        rw [ht, hlen, Nat.min_eq_left hn.le]
        rintro u ⟨⟩
        omega

theorem walk_of_stores {m : Memory} {data : ℕ} (hs : Stores m data (ts.flatMap Tlv.bytes))
    (hlt : ∀ t ∈ ts, t.value.length < 2 ^ 16) (hlast : ∀ t ∈ ts.getLast?, t.value ≠ []) :
    walk m data (ts.flatMap Tlv.bytes).length = place data ts := by
  induction ts generalizing data with
  | nil => exact walk_nil (.inl (Nat.zero_le 4))
  | cons t ts ih =>
    obtain ⟨ht, hts⟩ := List.forall_mem_cons.mp hlt
    rw [List.flatMap_cons] at hs
    obtain ⟨hst, hsts⟩ := Stores.append_iff.mp hs
    have hvisit := (visit_of_stores hst ht).1
    have hlen : ((t :: ts).flatMap Tlv.bytes).length = 4 + t.value.length + (ts.flatMap Tlv.bytes).length := by
      rw [List.flatMap_cons, List.length_append, t.length_bytes]
    have hpos : 0 < t.value.length + (ts.flatMap Tlv.bytes).length := by
      cases ts with
      | nil => exact Nat.add_pos_left (List.length_pos_of_ne_nil (hlast t rfl)) _
      | cons u ts =>
        have hrest := length_flatMap_bytes_pos (List.cons_ne_nil u ts)
        omega
    have hinside : ¬ (((t :: ts).flatMap Tlv.bytes).length ≤ 4 ∨
        ((t :: ts).flatMap Tlv.bytes).length < 4 + (visit m data).len) := by
      rw [hvisit, hlen]
      dsimp only
      omega
    rw [walk_cons hinside, hvisit, place, hlen]
    dsimp only
    rw [Nat.add_sub_cancel_left, ih]
    · rwa [t.length_bytes, ← Nat.add_assoc] at hsts
    · exact hts
    · intro u hu
      cases ts with
      | nil => cases hu
      | cons v ts => exact hlast u (by rwa [List.getLast?_cons_cons])

/-- What is written are the first TLVs. -/
theorem exists_image (size : ℕ) (ts : List Tlv) : ∃ us, us <+: ts ∧ (fill size [] ts).1 = image us := by
  obtain ⟨us, vs, rfl, hus, hvs⟩ := exists_cut size 0 ts
  refine ⟨us, List.prefix_append us vs, ?_⟩
  rw [fill_of_hasRoom hus, List.nil_append]
  apply fill_of_no_room
  intro t ht
  have := hvs t ht
  omega

theorem fill_of_length_le (h : ∀ t ∈ ts, t.written = t) (hlen : (image ts).length ≤ size) :
    fill size [] ts = (image ts, false) := by
  have hroom : HasRoom size 0 ts := (hasRoom_iff h).mpr (.inr (by omega))
  have hfill : fill size [] (ts ++ []) = fill size ([] ++ image ts) [] := fill_of_hasRoom hroom
  rwa [List.append_nil] at hfill

theorem exists_type_of_walk {m : Memory} {data : ℕ} {v : Visit} (hs : Stores m data (ts.flatMap Tlv.bytes))
    (hlt : ∀ t ∈ ts, t.value.length < 2 ^ 16) (hv : v ∈ walk m data (ts.flatMap Tlv.bytes).length) :
    ∃ t ∈ ts, v.type = t.type := by
  induction ts generalizing data with
  | nil =>
    have hnil : walk m data ([].flatMap Tlv.bytes).length = [] := walk_nil (.inl (Nat.zero_le 4))
    rw [hnil] at hv
    cases hv
  | cons t ts ih =>
    obtain ⟨ht, hts⟩ := List.forall_mem_cons.mp hlt
    by_cases hshort : ((t :: ts).flatMap Tlv.bytes).length ≤ 4 ∨
        ((t :: ts).flatMap Tlv.bytes).length < 4 + (visit m data).len
    · rw [walk_nil hshort] at hv
      cases hv
    · rw [List.flatMap_cons] at hs
      obtain ⟨hst, hsts⟩ := Stores.append_iff.mp hs
      have hvisit := (visit_of_stores hst ht).1
      rw [walk_cons hshort, List.flatMap_cons, List.length_append, t.length_bytes, hvisit] at hv
      rcases List.mem_cons.mp hv with rfl | hv
      · exact ⟨t, List.mem_cons_self, rfl⟩
      · rw [t.length_bytes, ← Nat.add_assoc] at hsts
        dsimp only at hv
        rw [Nat.add_sub_cancel_left] at hv
        obtain ⟨u, hu, hvu⟩ := ih hsts hts hv
        exact ⟨u, List.mem_cons_of_mem t hu, hvu⟩

end

namespace Decoder

variable {L W R : Type} {d : Decoder L W R} {m : Memory} {data len : ℕ} {t : Tlv} {ts : List Tlv}

/-- The headers a decoder comes to. -/
def comesTo (d : Decoder L W R) (m : Memory) (data len : ℕ) : List Visit :=
  if d.Rejects m data len then []
  else visit m data :: reached d.fields m (following m data len).1 (following m data len).2

/-- TLVs a decoder has a case for come to it one after the other. -/
theorem comesTo_of_stores (hm : Stores m data ((t :: ts).flatMap Tlv.bytes)) (htype : t.type = d.firstType)
    (hlt : ∀ u ∈ t :: ts, u.value.length < 2 ^ 16) (hknown : ∀ u ∈ ts, u.type ∈ d.types)
    (hlast : ∀ u ∈ (t :: ts).getLast?, u.value ≠ []) :
    d.comesTo m data ((t :: ts).flatMap Tlv.bytes).length = place data (t :: ts) := by
  obtain ⟨ht, hts⟩ := List.forall_mem_cons.mp hlt
  rw [List.flatMap_cons] at hm
  obtain ⟨hst, hsts⟩ := Stores.append_iff.mp hm
  have hvisit := (visit_of_stores hst ht).1
  have hlen : ((t :: ts).flatMap Tlv.bytes).length = 4 + t.value.length + (ts.flatMap Tlv.bytes).length := by
    rw [List.flatMap_cons, List.length_append, t.length_bytes]
  have haccepts : ¬ d.Rejects m data ((t :: ts).flatMap Tlv.bytes).length := by
    rw [Rejects, hvisit, hlen]
    simp only [htype, ne_eq, not_true_eq_false, or_false]
    omega
  have hfollowing : following m data ((t :: ts).flatMap Tlv.bytes).length =
      (data + 4 + t.value.length, (ts.flatMap Tlv.bytes).length) := by
    rw [following, hvisit, hlen]
    dsimp only
    rw [Nat.add_sub_cancel_left]
  have hwalk : walk m (data + 4 + t.value.length) (ts.flatMap Tlv.bytes).length =
      place (data + 4 + t.value.length) ts := by
    apply walk_of_stores
    · rwa [t.length_bytes, ← Nat.add_assoc] at hsts
    · exact hts
    · intro u hu
      cases ts with
      | nil => cases hu
      | cons v ts => exact hlast u (by rwa [List.getLast?_cons_cons])
  rw [comesTo, if_neg haccepts, hfollowing, hvisit, place, reached, hwalk]
  congr 1
  rw [List.takeWhile_eq_self_iff]
  intro v hv
  obtain ⟨u, hu, hvu, -⟩ := mem_place hv
  rw [known_iff, hvu]
  exact hknown u hu

/-- The values of TLVs a decoder has a case for fit their fields. -/
theorem allFit_of_stores (hm : Stores m data ((t :: ts).flatMap Tlv.bytes)) (htype : t.type = d.firstType)
    (hlt : ∀ u ∈ t :: ts, u.value.length < 2 ^ 16) (hknown : ∀ u ∈ ts, u.type ∈ d.types)
    (hlast : ∀ u ∈ (t :: ts).getLast?, u.value ≠ []) :
    ¬ d.Rejects m data ((t :: ts).flatMap Tlv.bytes).length ∧
      (d.AllFit m data ((t :: ts).flatMap Tlv.bytes).length ↔ d.first.get.Fits t.value.length ∧
        ∀ u ∈ ts, ∀ field, d.fields u.type = some field → field.get.Fits u.value.length) := by
  have hcomes := comesTo_of_stores hm htype hlt hknown hlast
  rw [comesTo] at hcomes
  split_ifs at hcomes with hrejects
  · cases hcomes
  · obtain ⟨hvisit, hreached⟩ := List.cons.inj hcomes
    refine ⟨hrejects, ?_⟩
    rw [AllFit, hvisit, hreached, fits_place]

/-- The first TLV of the record is the one a decoder begins with, and it has a case for every other one. -/
structure Reads (d : Decoder L W R) (record : List Tlv) : Prop where
  first : ∃ t ts, record = t :: ts ∧ t.type = d.firstType
  known : ∀ t ∈ record, t.type ∈ d.types
  last : ∀ t ∈ record.getLast?, t.written.value ≠ []

theorem comesTo_records {records : List (List Tlv)} (hne : records ≠ []) (h : ∀ record ∈ records, d.Reads record)
    (hm : Stores m data (image records.flatten)) :
    d.comesTo m data (image records.flatten).length = place data (records.flatten.map Tlv.written) := by
  obtain ⟨record, rest, rfl⟩ := List.exists_cons_of_ne_nil hne
  obtain ⟨t, ts, rfl, htype⟩ := (h _ List.mem_cons_self).first
  have hflatten : ((t :: ts) :: rest).flatten.map Tlv.written =
      t.written :: (ts ++ rest.flatten).map Tlv.written := rfl
  have hknown : ∀ u ∈ ((t :: ts) :: rest).flatten, u.type ∈ d.types := by
    intro u hu
    obtain ⟨record, hrecord, hu⟩ := List.mem_flatten.mp hu
    exact (h record hrecord).known u hu
  rw [image, hflatten] at hm ⊢
  apply comesTo_of_stores hm htype
  · rw [← List.map_cons]
    exact List.forall_mem_map.mpr fun u _ => u.length_written_lt
  · exact List.forall_mem_map.mpr fun u hu => hknown u (List.mem_cons_of_mem _ hu)
  · intro u hu
    rw [← hflatten, List.getLast?_map, List.getLast?_flatten] at hu
    obtain ⟨v, hv, rfl⟩ := Option.map_eq_some_iff.mp hu
    obtain ⟨record, hrecord, hlast⟩ := List.exists_of_findSome?_eq_some hv
    exact (h record (List.mem_reverse.mp hrecord)).last v hlast

/-- A decoder comes to the end of what is written when it has a case for every TLV after the first. -/
theorem terminates_image {w : W} (hs : Stores m data (image ts)) (h : ∀ t ∈ ts.tail, t.type ∈ d.types) :
    ∃ fuel, (d.recover m data (image ts).length w fuel).isSome := by
  rw [terminates_iff]
  cases ts with
  | nil => exact .inl (.inl (by decide))
  | cons t ts =>
    right
    intro v hv
    have hlt : ∀ u ∈ ts.map Tlv.written, u.value.length < 2 ^ 16 :=
      List.forall_mem_map.mpr fun u _ => u.length_written_lt
    rw [image, List.map_cons, List.flatMap_cons] at hs
    obtain ⟨hst, hsts⟩ := Stores.append_iff.mp hs
    have hvisit := (visit_of_stores hst t.length_written_lt).1
    have hlen : (image (t :: ts)).length = 4 + t.written.value.length + (image ts).length := length_image_cons
    rw [following, hvisit, hlen] at hv
    dsimp only at hv
    rw [Nat.add_sub_cancel_left] at hv
    rw [Tlv.length_bytes, ← Nat.add_assoc] at hsts
    obtain ⟨u, hu, htype⟩ := exists_type_of_walk hsts hlt hv
    obtain ⟨u, hmem, rfl⟩ := List.mem_map.mp hu
    rw [htype]
    exact h u hmem

end Decoder

end TlvStreams
