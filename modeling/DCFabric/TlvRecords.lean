import DCFabric.TlvDecoders

namespace TlvStreams

open LoopRuns

/-- A TLV in a buffer, where its length has two bytes. -/
def Tlv.written (t : Tlv) : Tlv := ⟨t.type, t.value.take (t.value.length % 2 ^ 16)⟩

/-- The TLVs are written one after the other, up to the first for which the buffer has no room. -/
def fill (size : ℕ) (bytes : List UInt8) : List Tlv → List UInt8 × Bool
  | [] => (bytes, false)
  | t :: ts =>
    if bytes.length + 4 + t.value.length > size then (bytes, true) else fill size (bytes ++ t.written.bytes) ts

section

variable {α : Type} [Word α] {size : ℕ} {bytes str : List UInt8} {t : Tlv} {ts us : List Tlv} {type : UInt16} {a : α}

theorem Tlv.written_of_lt (h : t.value.length < 2 ^ 16) : t.written = t := by
  rw [Tlv.written, Nat.mod_eq_of_lt h, List.take_length]

theorem Tlv.written_word : (Tlv.word type a).written = .word type a := by
  apply Tlv.written_of_lt
  rw [Tlv.length_word]
  exact Word.size_lt

theorem Tlv.value_word_ne_nil : (Tlv.word type a).value ≠ [] := by
  apply List.ne_nil_of_length_pos
  rw [Tlv.length_word]
  exact Word.size_pos

theorem Tlv.length_written_le (t : Tlv) : t.written.value.length ≤ t.value.length := List.length_take_le' _ _

theorem Tlv.length_written_lt (t : Tlv) : t.written.value.length < 2 ^ 16 := by
  simp only [Tlv.written, List.length_take]
  omega

/-- What arrives of a text. -/
def received (str : List UInt8) : List UInt8 := cstring ((str ++ [0]).take ((str.length + 1) % 2 ^ 16)).dropLast

/-- A text that an array takes with its end, and that has no byte of its own like it. -/
def IsText (capacity : ℕ) (str : List UInt8) : Prop := str.length < capacity ∧ 0 ∉ str

theorem cstring_eq_self (h : 0 ∉ str) : cstring str = str := by
  rw [cstring, List.takeWhile_eq_self_iff]
  intro b hb
  simpa using ne_of_mem_of_not_mem hb h

theorem not_mem_cstring : 0 ∉ cstring str := by
  intro h
  simpa using List.mem_takeWhile_imp h

theorem Tlv.value_written_text :
    (Tlv.text type str).written.value = (str ++ [0]).take ((str.length + 1) % 2 ^ 16) := by
  simp [Tlv.written, Tlv.text]

theorem Tlv.length_written_text : (Tlv.text type str).written.value.length = (str.length + 1) % 2 ^ 16 := by
  rw [Tlv.value_written_text, List.length_take, List.length_append, List.length_singleton]
  exact Nat.min_eq_left (Nat.mod_le _ _)

theorem received_length_le : (received str).length ≤ (str.length + 1) % 2 ^ 16 - 1 := by
  refine (List.takeWhile_prefix _).length_le.trans ?_
  rw [List.length_dropLast, List.length_take]
  omega

/-- A text arrives as it is and fits an array if and only if it is one for the array. -/
theorem received_iff (str : List UInt8) {capacity : ℕ} (hcap : capacity < 2 ^ 16) :
    (Get.text capacity).Fits ((str.length + 1) % 2 ^ 16) ∧ received str = str ↔ IsText capacity str := by
  constructor
  · rintro ⟨⟨hpos, hle⟩, hstr⟩
    have hlen : (received str).length ≤ (str.length + 1) % 2 ^ 16 - 1 := received_length_le
    refine ⟨?_, hstr ▸ not_mem_cstring⟩
    rw [hstr] at hlen
    omega
  · rintro ⟨hlt, hzero⟩
    have hmod : (str.length + 1) % 2 ^ 16 = str.length + 1 := Nat.mod_eq_of_lt (by omega)
    refine ⟨?_, ?_⟩
    · rw [hmod]
      exact ⟨Nat.le_add_left _ _, hlt⟩
    · rw [received, hmod, List.take_of_length_le (by simp), List.dropLast_concat, cstring_eq_self hzero]

theorem Tlv.written_text {capacity : ℕ} (hcap : capacity < 2 ^ 16) (h : IsText capacity str) :
    (Tlv.text type str).written = .text type str := by
  have hlt := h.1
  apply Tlv.written_of_lt
  simp only [Tlv.text, List.length_append, List.length_singleton]
  omega

section

variable {σ : Type} {fields : Fields σ} {set : α → σ → σ} {setText : List UInt8 → σ → σ} {capacity : ℕ} {s : σ}

theorem foldl_word (h : fields type = some (.word set)) :
    (Tlv.word type a :: ts).foldl (absorb fields) s = ts.foldl (absorb fields) (set a s) := by
  rw [List.foldl_cons, absorb_word h]

/-- Where nothing has been written to an array yet. -/
theorem foldl_text (h : fields type = some (.text capacity setText)) (hs : setText [] s = s) :
    ((Tlv.text type str).written :: ts).foldl (absorb fields) s =
      ts.foldl (absorb fields) (setText (received str) s) := by
  have ht : fields (Tlv.text type str).written.type = some (.text capacity setText) := h
  rw [List.foldl_cons, absorb, ht]
  simp only [TlvField.text, Tlv.value_written_text]
  split_ifs with hnil
  · have hnone : received str = [] := by
      rw [received, hnil]
      rfl
    rw [hnone, hs]
  · rfl

theorem takes_written_text (h : fields type = some (.text capacity setText)) :
    Takes fields (Tlv.text type str).written :=
  ⟨Tlv.length_written_lt _, _, h, rfl⟩

theorem fits_word (h : fields type = some (.word set)) :
    ∀ field, fields type = some field → field.get.Fits (Tlv.word type a).value.length := by
  intro field hf
  obtain rfl := Option.some.inj (h.symm.trans hf)
  rw [Tlv.length_word]
  exact Nat.le_refl _

theorem fits_text (h : fields type = some (.text capacity setText)) :
    (∀ field, fields type = some field → field.get.Fits (Tlv.text type str).written.value.length) ↔
      (Get.text capacity).Fits ((str.length + 1) % 2 ^ 16) := by
  rw [h, Tlv.length_written_text]
  simp only [Option.some.injEq, forall_eq']
  rfl

end

theorem fill_of_not_stopped (h : (fill size bytes ts).2 = false) :
    (fill size bytes ts).1 = bytes ++ (ts.map Tlv.written).flatMap Tlv.bytes := by
  induction ts generalizing bytes with
  | nil => simp [fill]
  | cons t ts ih =>
    rw [fill] at h ⊢
    split_ifs at h ⊢
    rw [ih h, List.map_cons, List.flatMap_cons, List.append_assoc]

theorem length_fill_le (h : bytes.length ≤ size) : (fill size bytes ts).1.length ≤ size := by
  induction ts generalizing bytes with
  | nil => exact h
  | cons t ts ih =>
    rw [fill]
    split_ifs
    · exact h
    · apply ih
      rw [List.length_append, Tlv.length_bytes]
      have hle := t.length_written_le
      omega

end

namespace Decoder

variable {L W R A : Type} {d : Decoder L W R} {m : Memory} {data len : ℕ} {w : W} {t : Tlv} {ts : List Tlv}

theorem fits_place {fields : Fields (L × W)} {addr : ℕ} : (∀ v ∈ place addr ts, FitsField fields v) ↔
    ∀ u ∈ ts, ∀ field, fields u.type = some field → field.get.Fits u.value.length := by
  constructor
  · intro hv u hu field hf
    obtain ⟨v, hv', htype, hl⟩ := exists_place hu addr
    rw [← hl]
    exact hv v hv' field (htype ▸ hf)
  · intro hu v hv field hf
    obtain ⟨u, hu', htype, hl⟩ := mem_place hv
    rw [hl]
    exact hu u hu' field (htype ▸ hf)

/-- The first TLV and those that follow it are what the decoder expects. -/
structure Expects (d : Decoder L W R) (t : Tlv) (ts : List Tlv) : Prop where
  type : t.type = d.firstType
  lt : t.value.length < 2 ^ 16
  size : d.first.get.size t.value.length = t.value.length
  takes : ∀ u ∈ ts, Takes d.fields u
  last : ∀ u ∈ ts.getLast?, u.value ≠ []

section

variable (h : d.Expects t ts) (hm : Stores m data ((t :: ts).flatMap Tlv.bytes))
  (hlen : len = ((t :: ts).flatMap Tlv.bytes).length)

include h hm

theorem visit_encoded : visit m data = ⟨data, t.type, t.value.length⟩ ∧ load m (data + 4) t.value.length = t.value := by
  rw [List.flatMap_cons] at hm
  exact visit_of_stores (Stores.append_iff.mp hm).1 h.lt

theorem stores_following (len : ℕ) : Stores m (following m data len).1 (ts.flatMap Tlv.bytes) := by
  rw [following, (visit_encoded h hm).1]
  rw [List.flatMap_cons, Stores.append_iff, t.length_bytes] at hm
  dsimp only
  rw [Nat.add_assoc]
  exact hm.2

theorem start_state : (d.start m data len w).state = d.first.store t.value (d.locals, d.clear w) := by
  obtain ⟨hvisit, hvalue⟩ := visit_encoded h hm
  simp only [start, Cursor.take, Visit.value, hvisit, h.size, hvalue]

include hlen

theorem length_following : (following m data len).2 = (ts.flatMap Tlv.bytes).length := by
  rw [following, (visit_encoded h hm).1, hlen, List.flatMap_cons, List.length_append, t.length_bytes]
  dsimp only
  omega

theorem not_rejects_encoded : ¬ d.Rejects m data len := by
  rw [List.flatMap_cons, List.length_append, t.length_bytes] at hlen
  rw [Rejects, (visit_encoded h hm).1]
  simp only [h.type, ne_eq, not_true_eq_false, or_false]
  omega

theorem recover_encoded : ∃ fuel, d.recover m data len w fuel =
    some (d.finish (ts.foldl (absorb d.fields) (d.first.store t.value (d.locals, d.clear w)))) := by
  have hends := ends_encoded (c := d.start m data len w) rfl (stores_following h hm len)
    (length_following h hm hlen) h.takes h.last
  obtain ⟨fuel, hf⟩ := hends.exists_run
  refine ⟨fuel, ?_⟩
  rw [recover_of_accepts (not_rejects_encoded h hm hlen), hf, start_state h hm]
  rfl

/-- The values of the TLVs fit their fields. -/
theorem allFit_encoded (w : W) : d.AllFit m data len ↔ d.first.get.Fits t.value.length ∧
    ∀ u ∈ ts, ∀ field, d.fields u.type = some field → field.get.Fits u.value.length := by
  have hends := ends_encoded (c := d.start m data len w) rfl (stores_following h hm len)
    (length_following h hm hlen) h.takes h.last
  have hwalk := walk_encoded (c := d.start m data len w) rfl (stores_following h hm len)
    (length_following h hm hlen) h.takes h.last
  have hreached : reached d.fields m (following m data len).1 (following m data len).2 =
      place (following m data len).1 ts :=
    (List.takeWhile_eq_self_iff.mpr (known_of_ends hends)).trans hwalk
  rw [AllFit, (visit_encoded h hm).1, hreached, fits_place]

end

/-- Records that begin with a TLV of their own, at which what was read of the record before is stored. -/
structure Records (d : Decoder L W R) (A : Type) where
  marker : A → Tlv
  rest : A → List Tlv
  begun : A → L
  read : A → L
  flush : L × W → W
  post : W → R × W
  marker_type : ∀ a, (marker a).type = d.firstType
  marker_takes : ∀ a, Takes d.fields (marker a)
  marker_fits : ∀ a field, d.fields (marker a).type = some field → field.get.Fits (marker a).value.length
  first_size : ∀ a, d.first.get.size (marker a).value.length = (marker a).value.length
  first_fits : ∀ a, d.first.get.Fits (marker a).value.length
  rest_takes : ∀ a, ∀ t ∈ rest a, Takes d.fields t
  rest_last : ∀ a, ∀ t ∈ (marker a :: rest a).getLast?, t.value ≠ []
  store_first : ∀ a w, d.first.store (marker a).value (d.locals, w) = (begun a, w)
  absorb_marker : ∀ a s, absorb d.fields s (marker a) = (begun a, flush s)
  absorb_rest : ∀ a w, (rest a).foldl (absorb d.fields) (begun a, w) = (read a, w)
  finish : ∀ s, d.finish s = post (flush s)

/-- The value of a TLV is copied as a whole. -/
structure Copies (fields : Fields (L × W)) (t : Tlv) : Prop where
  takes : Takes fields t
  ne_nil : t.value ≠ []
  fits : ∀ field, fields t.type = some field → field.get.Fits t.value.length

theorem copies_word {α : Type} [Word α] {type : UInt16} {a : α} {fields : Fields (L × W)} {set : α → L × W → L × W}
    (h : fields type = some (.word set)) : Copies fields (.word type a) :=
  ⟨takes_word h, Tlv.value_word_ne_nil, fits_word h⟩

/-- A word, with the type of a field that takes it. -/
inductive HoldsWord (fields : Fields (L × W)) : Tlv → Prop
  | word {α : Type} [Word α] {type : UInt16} {set : α → L × W → L × W} (a : α)
      (h : fields type = some (.word set)) : HoldsWord fields (.word type a)

theorem HoldsWord.copies {fields : Fields (L × W)} (h : HoldsWord fields t) : Copies fields t := by
  cases h with
  | word a h => exact copies_word h

/-- Records of words. -/
def Records.ofWords {α : Type} [Word α] (set next : α → L × W → L × W) (value : A → α) (rest : A → List Tlv)
    (begun read : A → L) (flush : L × W → W) (post : W → R × W) (hfirst : d.first = .word set)
    (hnext : d.fields d.firstType = some (.word next)) (hrest : ∀ a, ∀ t ∈ rest a, Copies d.fields t)
    (hset : ∀ a w, set (value a) (d.locals, w) = (begun a, w)) (hflush : ∀ a s, next (value a) s = (begun a, flush s))
    (habsorb : ∀ a w, (rest a).foldl (absorb d.fields) (begun a, w) = (read a, w))
    (hfinish : ∀ s, d.finish s = post (flush s)) : d.Records A where
  marker a := .word d.firstType (value a)
  rest := rest
  begun := begun
  read := read
  flush := flush
  post := post
  marker_type _ := rfl
  marker_takes _ := takes_word hnext
  marker_fits _ := fits_word hnext
  first_size _ := by
    rw [hfirst, Tlv.length_word]
    rfl
  first_fits _ := by
    rw [hfirst, Tlv.length_word]
    exact Nat.le_refl _
  rest_takes a t ht := (hrest a t ht).takes
  rest_last a t ht := by
    rcases List.mem_cons.mp (List.mem_of_getLast? ht) with rfl | ht
    · exact Tlv.value_word_ne_nil
    · exact (hrest a t ht).ne_nil
  store_first a w := (TlvField.store_word hfirst).trans (hset a w)
  absorb_marker a s := (absorb_word hnext).trans (hflush a s)
  absorb_rest := habsorb
  finish := hfinish

namespace Records

variable (rs : d.Records A) {a : A} {as : List A}

def tlvs (as : List A) : List Tlv := as.flatMap fun a => rs.marker a :: rs.rest a

/-- What the records come to, each stored after the ones before it. -/
def storeAll (as : List A) (w : W) : W := as.foldl (fun w a => rs.flush (rs.read a, w)) w

def FitsRecord (a : A) : Prop := ∀ t ∈ rs.rest a, ∀ field, d.fields t.type = some field → field.get.Fits t.value.length

variable {rs}

theorem tlvs_cons : rs.tlvs (a :: as) = rs.marker a :: (rs.rest a ++ rs.tlvs as) := rfl

theorem getLast_tlvs (h : t ∈ (rs.tlvs as).getLast?) : t.value ≠ [] := by
  induction as with
  | nil => cases h
  | cons a as ih =>
    rw [tlvs_cons, ← List.cons_append, List.getLast?_append] at h
    cases hl : (rs.tlvs as).getLast? with
    | none =>
      rw [hl, Option.none_or] at h
      exact rs.rest_last a t h
    | some u =>
      rw [hl, Option.some_or] at h
      exact ih (hl.trans h)

theorem takes_tlvs (h : t ∈ rs.tlvs as) : Takes d.fields t := by
  obtain ⟨a, -, ht⟩ := List.mem_flatMap.mp h
  rcases List.mem_cons.mp ht with rfl | ht
  · exact rs.marker_takes a
  · exact rs.rest_takes a t ht

theorem map_written_tlvs (rs : d.Records A) : (rs.tlvs as).map Tlv.written = rs.tlvs as :=
  (List.map_congr_left fun _ ht => Tlv.written_of_lt (takes_tlvs ht).1).trans (List.map_id _)

theorem flush_absorb (s : L × W) :
    rs.flush ((rs.tlvs as).foldl (absorb d.fields) s) = rs.storeAll as (rs.flush s) := by
  induction as generalizing s with
  | nil => rfl
  | cons a as ih =>
    rw [tlvs_cons, List.foldl_cons, List.foldl_append, rs.absorb_marker, rs.absorb_rest, ih]
    rfl

theorem expects : d.Expects (rs.marker a) (rs.rest a ++ rs.tlvs as) where
  type := rs.marker_type a
  lt := (rs.marker_takes a).1
  size := rs.first_size a
  takes t ht := by
    rcases List.mem_append.mp ht with ht | ht
    · exact rs.rest_takes a t ht
    · exact takes_tlvs ht
  last t ht := by
    have hlast : t ∈ (rs.tlvs (a :: as)).getLast? → t.value ≠ [] := getLast_tlvs
    apply hlast
    rw [tlvs_cons, List.getLast?_cons]
    rw [ht]
    rfl

variable (hm : Stores m data ((rs.tlvs (a :: as)).flatMap Tlv.bytes))
  (hlen : len = ((rs.tlvs (a :: as)).flatMap Tlv.bytes).length)

include hm hlen

/-- The decoder of a list of records stores the records that were encoded. -/
theorem recover_tlvs : ∃ fuel, d.recover m data len w fuel = some (rs.post (rs.storeAll (a :: as) (d.clear w))) := by
  obtain ⟨fuel, hf⟩ := recover_encoded (w := w) expects hm hlen
  refine ⟨fuel, ?_⟩
  rw [hf, rs.finish, rs.store_first, List.foldl_append, rs.absorb_rest, flush_absorb]
  rfl

theorem allFit_tlvs (w : W) : d.AllFit m data len ↔ ∀ b ∈ a :: as, rs.FitsRecord b := by
  rw [allFit_encoded expects hm hlen w, and_iff_right (rs.first_fits a), List.forall_mem_append, List.forall_mem_cons]
  refine and_congr_right fun _ => ?_
  constructor
  · intro h b hb t ht
    exact h t (List.mem_flatMap.mpr ⟨b, hb, List.mem_cons_of_mem _ ht⟩)
  · intro h t ht
    obtain ⟨b, hb, ht⟩ := List.mem_flatMap.mp ht
    rcases List.mem_cons.mp ht with rfl | ht
    · exact rs.marker_fits b
    · exact h b hb t ht

end Records

end Decoder

end TlvStreams
