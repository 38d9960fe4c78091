import DCFabric.LoopRuns

namespace TlvStreams

open LoopRuns

/-- Values of bytes by their address, outside of the buffers too. -/
abbrev Memory := ℕ → UInt8

def load (m : Memory) (addr n : ℕ) : List UInt8 := (List.range' addr n).map m

def leNat : List UInt8 → ℕ
  | [] => 0
  | b :: bs => b.toNat + 256 * leNat bs

def leBytes : ℕ → ℕ → List UInt8
  | 0, _ => []
  | n + 1, v => UInt8.ofNat v :: leBytes n (v / 256)

section

variable {m : Memory} {addr n k v : ℕ} {bs cs : List UInt8}

@[simp] theorem length_load : (load m addr n).length = n := by
  simp [load]

theorem load_add : load m addr (n + k) = load m addr n ++ load m (addr + n) k := by
  rw [load, load, load, ← List.map_append, List.range'_append_1]

@[simp] theorem length_leBytes : (leBytes n v).length = n := by
  induction n generalizing v with
  | zero => rfl
  | succ n ih => simp [leBytes, ih]

theorem leNat_leBytes (h : v < 256 ^ n) : leNat (leBytes n v) = v := by
  induction n generalizing v with
  | zero =>
    rw [Nat.pow_zero] at h
    rw [leBytes, leNat]
    omega
  | succ n ih =>
    have hdiv : v / 256 < 256 ^ n := by
      rw [Nat.div_lt_iff_lt_mul (by omega)]
      rwa [Nat.pow_succ] at h
    rw [leBytes, leNat, ih hdiv, UInt8.toNat_ofNat']
    omega

theorem leBytes_leNat (bs : List UInt8) : leBytes bs.length (leNat bs) = bs := by
  induction bs with
  | nil => rfl
  | cons b bs ih =>
    have hb := b.toNat_lt
    have hmod : UInt8.ofNat (b.toNat + 256 * leNat bs) = b := by
      apply UInt8.toNat_inj.mp
      rw [UInt8.toNat_ofNat']
      omega
    have hdiv : (b.toNat + 256 * leNat bs) / 256 = leNat bs := by omega
    rw [List.length_cons, leNat, leBytes, hmod, hdiv, ih]

theorem leNat_lt (bs : List UInt8) : leNat bs < 256 ^ bs.length := by
  induction bs with
  | nil => simp [leNat]
  | cons b bs ih =>
    have hb := b.toNat_lt
    rw [leNat, List.length_cons, Nat.pow_succ]
    omega

/-- The bytes lie at the address. -/
def Stores (m : Memory) (addr : ℕ) (bs : List UInt8) : Prop := load m addr bs.length = bs

instance (bs : List UInt8) : Decidable (Stores m addr bs) := inferInstanceAs (Decidable (_ = _))

theorem Stores.append_iff : Stores m addr (bs ++ cs) ↔ Stores m addr bs ∧ Stores m (addr + bs.length) cs := by
  rw [Stores, List.length_append, load_add]
  constructor
  · intro h
    exact List.append_inj h length_load
  · rintro ⟨hb, hc⟩
    rw [hb, hc]

theorem Stores.load_take (h : Stores m addr bs) (hn : n ≤ bs.length) : load m addr n = bs.take n := by
  have hsplit : Stores m addr (bs.take n ++ bs.drop n) := (List.take_append_drop n bs).symm ▸ h
  have htake := (Stores.append_iff.mp hsplit).1
  rwa [Stores, List.length_take_of_le hn] at htake

theorem Stores.load_drop (h : Stores m addr bs) (hn : n ≤ bs.length) :
    load m (addr + n) (bs.length - n) = bs.drop n := by
  have hsplit : Stores m addr (bs.take n ++ bs.drop n) := (List.take_append_drop n bs).symm ▸ h
  have hdrop := (Stores.append_iff.mp hsplit).2
  rwa [Stores, List.length_take_of_le hn, List.length_drop] at hdrop

end

structure Tlv where
  type : UInt16
  value : List UInt8
deriving DecidableEq

def Tlv.bytes (t : Tlv) : List UInt8 := leBytes 2 t.type.toNat ++ leBytes 2 t.value.length ++ t.value

/-- The header at an address. -/
structure Visit where
  addr : ℕ
  type : UInt16
  len : ℕ
deriving DecidableEq

def visit (m : Memory) (addr : ℕ) : Visit where
  addr := addr
  type := UInt16.ofNat (leNat (load m addr 2))
  len := leNat (load m (addr + 2) 2)

/-- What of a value is copied: a number of bytes set by the field, or its whole length into an array. -/
inductive Get where
  | fixed (n : ℕ)
  | text (capacity : ℕ)

namespace Get

def size : Get → ℕ → ℕ
  | fixed n, _ => n
  | text _, len => len

/-- The copy stays inside a value of `len` bytes and inside the array. -/
def Fits : Get → ℕ → Prop
  | fixed n, len => n ≤ len
  | text capacity, len => 1 ≤ len ∧ len ≤ capacity

instance (get : Get) (len : ℕ) : Decidable (get.Fits len) :=
  match get with
  | fixed n => inferInstanceAs (Decidable (n ≤ len))
  | text capacity => inferInstanceAs (Decidable (1 ≤ len ∧ len ≤ capacity))

end Get

structure TlvField (σ : Type) where
  get : Get
  store : List UInt8 → σ → σ

abbrev Fields (σ : Type) := UInt16 → Option (TlvField σ)

structure Cursor (σ : Type) where
  state : σ
  data : ℕ
  len : ℕ

variable {σ : Type} {fields : Fields σ} {m : Memory} {c c' : Cursor σ} {s r : σ} {vs : List Visit} {v : Visit}
  {data len : ℕ}

def Visit.value (m : Memory) (v : Visit) (get : Get) : List UInt8 := load m (v.addr + 4) (get.size v.len)

def Cursor.take (m : Memory) (c : Cursor σ) (v : Visit) (field : TlvField σ) : Cursor σ where
  state := field.store (v.value m field.get) c.state
  data := c.data + 4 + v.len
  len := c.len - (4 + v.len)

/-- One pass of the loop over the TLVs: a type without a field is left where it is. -/
def pass (fields : Fields σ) (m : Memory) (c : Cursor σ) : Pass (Cursor σ) Visit σ :=
  if c.len ≤ 4 then .leave c.state
  else
    let v := visit m c.data
    if c.len < 4 + v.len then .leave c.state
    else
      match fields v.type with
      | none => .next v c
      | some field => .next v (c.take m v field)

/-- The bytes a pass consumes. -/
def consumed (fields : Fields σ) (v : Visit) : ℕ :=
  match fields v.type with
  | none => 0
  | some _ => 4 + v.len

/-- The headers that are met when the lengths are followed. -/
def walk (m : Memory) (data len : ℕ) : List Visit :=
  if len ≤ 4 ∨ len < 4 + (visit m data).len then []
  else visit m data :: walk m (data + 4 + (visit m data).len) (len - (4 + (visit m data).len))
termination_by len

def Known (fields : Fields σ) (v : Visit) : Bool := (fields v.type).isSome

def receive (fields : Fields σ) (m : Memory) (s : σ) (v : Visit) : σ :=
  match fields v.type with
  | none => s
  | some field => field.store (v.value m field.get) s

theorem walk_nil (h : len ≤ 4 ∨ len < 4 + (visit m data).len) : walk m data len = [] := by
  rw [walk, if_pos h]

theorem walk_cons (h : ¬ (len ≤ 4 ∨ len < 4 + (visit m data).len)) :
    walk m data len = visit m data :: walk m (data + 4 + (visit m data).len) (len - (4 + (visit m data).len)) := by
  rw [walk, if_neg h]

theorem pass_leave (h : c.len ≤ 4 ∨ c.len < 4 + (visit m c.data).len) : pass fields m c = .leave c.state := by
  rw [pass]
  split_ifs with h₁
  · rfl
  · dsimp only
    rw [if_pos (h.resolve_left h₁)]

theorem pass_known {field : TlvField σ} (h : ¬ (c.len ≤ 4 ∨ c.len < 4 + (visit m c.data).len))
    (hf : fields (visit m c.data).type = some field) :
    pass fields m c = .next (visit m c.data) (c.take m (visit m c.data) field) := by
  rw [pass, if_neg (by omega)]
  dsimp only
  rw [if_neg (by omega), hf]

theorem pass_unknown (h : ¬ (c.len ≤ 4 ∨ c.len < 4 + (visit m c.data).len))
    (hf : fields (visit m c.data).type = none) : pass fields m c = .next (visit m c.data) c := by
  rw [pass, if_neg (by omega)]
  dsimp only
  rw [if_neg (by omega), hf]

theorem walk_take (field : TlvField σ) (h : ¬ (c.len ≤ 4 ∨ c.len < 4 + (visit m c.data).len)) :
    walk m c.data c.len = visit m c.data ::
      walk m (c.take m (visit m c.data) field).data (c.take m (visit m c.data) field).len :=
  walk_cons h

theorem ends_of_known (h : ∀ v ∈ walk m c.data c.len, Known fields v) :
    Ends (pass fields m) c (walk m c.data c.len) ((walk m c.data c.len).foldl (receive fields m) c.state) := by
  induction hn : c.len using Nat.strong_induction_on generalizing c with
  | _ n ih =>
    subst hn
    by_cases hc : c.len ≤ 4 ∨ c.len < 4 + (visit m c.data).len
    · rw [walk_nil hc]
      exact .leave (pass_leave hc)
    · obtain ⟨field, hf⟩ := Option.isSome_iff_exists.mp (h _ (walk_cons hc ▸ List.mem_cons_self))
      rw [walk_take field hc] at h ⊢
      have hstate : (c.take m (visit m c.data) field).state = receive fields m c.state (visit m c.data) := by
        rw [receive, hf]
        rfl
      rw [List.foldl_cons, ← hstate]
      refine .next (pass_known hc hf) (ih _ ?_ (fun v hv => h v (List.mem_cons_of_mem _ hv)) rfl)
      simp only [Cursor.take]
      omega

theorem known_of_ends (h : Ends (pass fields m) c vs r) : ∀ v ∈ walk m c.data c.len, Known fields v := by
  induction h with
  | @leave c r h =>
    by_cases hc : c.len ≤ 4 ∨ c.len < 4 + (visit m c.data).len
    · rw [walk_nil hc]
      exact List.forall_mem_nil _
    · cases hf : fields (visit m c.data).type with
      | none => rw [pass_unknown hc hf] at h; cases h
      | some field => rw [pass_known hc hf] at h; cases h
  | @next c t e es r h ht ih =>
    by_cases hc : c.len ≤ 4 ∨ c.len < 4 + (visit m c.data).len
    · rw [pass_leave hc] at h
      cases h
    · cases hf : fields (visit m c.data).type with
      | none =>
        -- the pass leads back to the cursor it starts from
        rw [pass_unknown hc hf] at h
        cases h
        have hstuck : ∀ x, x = c → ∃ e t, pass fields m x = .next e t ∧ t = c := by
          rintro x rfl
          exact ⟨_, _, pass_unknown hc hf, rfl⟩
        exact absurd ht (not_ends_of_next hstuck rfl)
      | some field =>
        rw [pass_known hc hf] at h
        cases h
        rw [walk_take field hc]
        refine List.forall_mem_cons.mpr ⟨?_, ih⟩
        rw [Known, hf]
        rfl

/-- The loop ends if and only if every header on the way has a type with a field. -/
theorem ends_iff : (∃ vs r, Ends (pass fields m) c vs r) ↔ ∀ v ∈ walk m c.data c.len, Known fields v := by
  constructor
  · rintro ⟨vs, r, h⟩
    exact known_of_ends h
  · intro h
    exact ⟨_, _, ends_of_known h⟩

/-- Every pass that goes on leaves fewer bytes. -/
def Consumes (fields : Fields σ) (m : Memory) (c : Cursor σ) : Prop :=
  ∀ vs c' v c'', Passes (pass fields m) c vs c' → pass fields m c' = .next v c'' → c''.len < c'.len

theorem Consumes.next (h : Consumes fields m c) (hc : pass fields m c = .next v c') : Consumes fields m c' :=
  fun _ _ _ _ hp => h _ _ _ _ (.next hc hp)

theorem ends_of_consumes (h : Consumes fields m c) : ∃ vs r, Ends (pass fields m) c vs r := by
  apply ends_of_measure Cursor.len (I := Consumes fields m) _ _ h
  · intro c _ hf
    by_cases hc : c.len ≤ 4 ∨ c.len < 4 + (visit m c.data).len
    · rw [pass_leave hc] at hf
      cases hf
    · cases ht : fields (visit m c.data).type with
      | none => rw [pass_unknown hc ht] at hf; cases hf
      | some field => rw [pass_known hc ht] at hf; cases hf
  · intro c v c' hc hnext
    exact ⟨hc.next hnext, hc _ _ _ _ .refl hnext⟩

theorem consumes_of_known (h : ∀ v ∈ walk m c.data c.len, Known fields v) : Consumes fields m c := by
  intro vs c' v c'' hp hnext
  induction hp with
  | @refl c =>
    by_cases hc : c.len ≤ 4 ∨ c.len < 4 + (visit m c.data).len
    · rw [pass_leave hc] at hnext
      cases hnext
    · obtain ⟨field, hf⟩ := Option.isSome_iff_exists.mp (h _ (walk_cons hc ▸ List.mem_cons_self))
      rw [pass_known hc hf] at hnext
      cases hnext
      simp only [Cursor.take]
      omega
  | @next c t u e es hstep ht ih =>
    by_cases hc : c.len ≤ 4 ∨ c.len < 4 + (visit m c.data).len
    · rw [pass_leave hc] at hstep
      cases hstep
    · obtain ⟨field, hf⟩ := Option.isSome_iff_exists.mp (h _ (walk_cons hc ▸ List.mem_cons_self))
      rw [pass_known hc hf] at hstep
      cases hstep
      rw [walk_take field hc] at h
      exact ih (fun v hv => h v (List.mem_cons_of_mem _ hv)) hnext

theorem consumes_iff : Consumes fields m c ↔ ∀ v ∈ walk m c.data c.len, Known fields v :=
  ⟨fun h => ends_iff.mp (ends_of_consumes h), consumes_of_known⟩

section

variable {t : Tlv} {ts : List Tlv} {addr : ℕ}

def place : ℕ → List Tlv → List Visit
  | _, [] => []
  | addr, t :: ts => ⟨addr, t.type, t.value.length⟩ :: place (addr + 4 + t.value.length) ts

/-- The effect of a TLV whose field copies the value as it is. -/
def absorb (fields : Fields σ) (s : σ) (t : Tlv) : σ :=
  match fields t.type with
  | none => s
  | some field => field.store t.value s

/-- The field of the type copies the whole value. -/
def Takes (fields : Fields σ) (t : Tlv) : Prop :=
  t.value.length < 2 ^ 16 ∧ ∃ field, fields t.type = some field ∧ field.get.size t.value.length = t.value.length

theorem Tlv.length_bytes (t : Tlv) : t.bytes.length = 4 + t.value.length := by
  simp only [Tlv.bytes, List.length_append, length_leBytes]

theorem visit_of_stores (h : Stores m addr t.bytes) (ht : t.value.length < 2 ^ 16) :
    visit m addr = ⟨addr, t.type, t.value.length⟩ ∧ load m (addr + 4) t.value.length = t.value := by
  obtain ⟨hheader, hvalue⟩ := Stores.append_iff.mp h
  obtain ⟨htype, hlen⟩ := Stores.append_iff.mp hheader
  simp only [Stores, List.length_append, length_leBytes] at htype hlen hvalue
  refine ⟨?_, hvalue⟩
  rw [visit, htype, hlen, leNat_leBytes (v := t.value.length) (by simpa using ht),
    leNat_leBytes (v := t.type.toNat) (by simpa using t.type.toNat_lt), UInt16.ofNat_toNat]

theorem length_flatMap_bytes_pos (h : ts ≠ []) : 4 ≤ (ts.flatMap Tlv.bytes).length := by
  cases ts with
  | nil => exact absurd rfl h
  | cons t ts =>
    rw [List.flatMap_cons, List.length_append, t.length_bytes]
    omega

/-- A last TLV without a value would not be looked at. -/
theorem ends_encoded {bs : List UInt8} (hbs : bs = ts.flatMap Tlv.bytes) (hs : Stores m c.data bs)
    (hlen : c.len = bs.length) (ht : ∀ t ∈ ts, Takes fields t) (hlast : ∀ t ∈ ts.getLast?, t.value ≠ []) :
    Ends (pass fields m) c (place c.data ts) (ts.foldl (absorb fields) c.state) := by
  subst hbs
  induction ts generalizing c with
  | nil =>
    refine .leave (pass_leave (.inl ?_))
    rw [hlen]
    exact Nat.zero_le 4
  | cons t ts ih =>
    obtain ⟨⟨hlt, field, hf, hsize⟩, hts⟩ := List.forall_mem_cons.mp ht
    rw [List.flatMap_cons] at hs hlen
    rw [List.length_append, t.length_bytes] at hlen
    have hpos : 0 < t.value.length + (ts.flatMap Tlv.bytes).length := by
      cases ts with
      | nil => exact Nat.add_pos_left (List.length_pos_of_ne_nil (hlast t rfl)) _
      | cons u ts =>
        have hrest := length_flatMap_bytes_pos (List.cons_ne_nil u ts)
        omega
    obtain ⟨hst, hsts⟩ := Stores.append_iff.mp hs
    obtain ⟨hvisit, hvalue⟩ := visit_of_stores hst hlt
    have hpass : pass fields m c = .next (visit m c.data) (c.take m (visit m c.data) field) := by
      apply pass_known
      · rw [hvisit]
        dsimp only
        omega
      · rw [hvisit]
        exact hf
    rw [hvisit] at hpass
    have hstate : absorb fields c.state t = field.store t.value c.state := by
      rw [absorb, hf]
    rw [place, List.foldl_cons, hstate]
    refine .next hpass ?_
    have hc : Cursor.take m c ⟨c.data, t.type, t.value.length⟩ field =
        ⟨field.store t.value c.state, c.data + 4 + t.value.length, c.len - (4 + t.value.length)⟩ := by
      simp only [Cursor.take, Visit.value, hsize, hvalue]
    rw [hc]
    refine ih hts ?_ ?_ ?_
    · intro u hu
      cases ts with
      | nil => cases hu
      | cons u' ts => exact hlast u (by rwa [List.getLast?_cons_cons])
    · rwa [t.length_bytes, ← Nat.add_assoc] at hsts
    · dsimp only
      omega

theorem walk_encoded {bs : List UInt8} (hbs : bs = ts.flatMap Tlv.bytes) (hs : Stores m c.data bs)
    (hlen : c.len = bs.length) (ht : ∀ t ∈ ts, Takes fields t) (hlast : ∀ t ∈ ts.getLast?, t.value ≠ []) :
    walk m c.data c.len = place c.data ts := by
  have hends := ends_encoded hbs hs hlen ht hlast
  exact ((ends_of_known (known_of_ends hends)).unique hends).1

theorem mem_place {v : Visit} (h : v ∈ place addr ts) : ∃ t ∈ ts, v.type = t.type ∧ v.len = t.value.length := by
  induction ts generalizing addr with
  | nil => cases h
  | cons t ts ih =>
    rcases List.mem_cons.mp h with rfl | h
    · exact ⟨t, List.mem_cons_self, rfl, rfl⟩
    · obtain ⟨u, hu, hv⟩ := ih h
      exact ⟨u, List.mem_cons_of_mem t hu, hv⟩

theorem exists_place (h : t ∈ ts) (addr : ℕ) : ∃ v ∈ place addr ts, v.type = t.type ∧ v.len = t.value.length := by
  induction ts generalizing addr with
  | nil => cases h
  | cons u ts ih =>
    rcases List.mem_cons.mp h with rfl | h
    · exact ⟨_, List.mem_cons_self, rfl, rfl⟩
    · obtain ⟨v, hv, hu⟩ := ih h (addr + 4 + u.value.length)
      exact ⟨v, List.mem_cons_of_mem _ hv, hu⟩

end

section

variable {lo hi : ℕ} {a : Access}

/-- A read, a copy of `n` bytes of a value of `len` bytes, or a copy of `n` bytes into an array. -/
inductive Access where
  | read (addr n : ℕ)
  | value (addr n len : ℕ)
  | write (n capacity : ℕ)

def Access.Safe (lo hi : ℕ) : Access → Prop
  | read addr n => lo ≤ addr ∧ addr + n ≤ hi
  | value addr n len => lo ≤ addr ∧ addr + n ≤ hi ∧ n ≤ len
  | write n capacity => 1 ≤ n ∧ n ≤ capacity

theorem Access.safe_read {addr n : ℕ} : (read addr n).Safe lo hi ↔ lo ≤ addr ∧ addr + n ≤ hi := Iff.rfl

theorem Access.safe_value {addr n len : ℕ} : (value addr n len).Safe lo hi ↔ lo ≤ addr ∧ addr + n ≤ hi ∧ n ≤ len :=
  Iff.rfl

def Get.accesses (get : Get) (v : Visit) : List Access :=
  .value (v.addr + 4) (get.size v.len) v.len ::
    match get with
    | fixed _ => []
    | text capacity => [.write v.len capacity]

/-- What a pass from the cursor reads and writes. -/
def accesses (fields : Fields σ) (m : Memory) (c : Cursor σ) : List Access :=
  if c.len ≤ 4 then []
  else
    let v := visit m c.data
    .read c.data 4 ::
      if c.len < 4 + v.len then []
      else
        match fields v.type with
        | none => []
        | some field => field.get.accesses v

theorem accesses_idle (h : c.len ≤ 4) : accesses fields m c = [] := if_pos h

theorem accesses_short (h : ¬ c.len ≤ 4) (h' : c.len < 4 + (visit m c.data).len) :
    accesses fields m c = [.read c.data 4] := by
  rw [accesses, if_neg h]
  dsimp only
  rw [if_pos h']

theorem accesses_unknown (h : ¬ (c.len ≤ 4 ∨ c.len < 4 + (visit m c.data).len))
    (hf : fields (visit m c.data).type = none) : accesses fields m c = [.read c.data 4] := by
  rw [accesses, if_neg (by omega)]
  dsimp only
  rw [if_neg (by omega), hf]

theorem accesses_known {field : TlvField σ} (h : ¬ (c.len ≤ 4 ∨ c.len < 4 + (visit m c.data).len))
    (hf : fields (visit m c.data).type = some field) :
    accesses fields m c = .read c.data 4 :: field.get.accesses (visit m c.data) := by
  rw [accesses, if_neg (by omega)]
  dsimp only
  rw [if_neg (by omega), hf]

theorem Get.safe_iff {get : Get} (hlo : lo ≤ v.addr) (hhi : v.addr + 4 + v.len ≤ hi) :
    (∀ a ∈ get.accesses v, a.Safe lo hi) ↔ get.Fits v.len := by
  cases get with
  | fixed n =>
    simp only [Get.accesses, List.forall_mem_singleton, Access.Safe, Get.size, Get.Fits]
    omega
  | text capacity =>
    simp [Get.accesses, Access.Safe, Get.size, Get.Fits]
    omega

/-- The headers that are met up to the first whose type has no field. -/
def reached (fields : Fields σ) (m : Memory) (data len : ℕ) : List Visit := (walk m data len).takeWhile (Known fields)

/-- The value of a field of the type fits the field. -/
def FitsField (fields : Fields σ) (v : Visit) : Prop := ∀ field, fields v.type = some field → field.get.Fits v.len

theorem reached_known {field : TlvField σ} (h : ¬ (c.len ≤ 4 ∨ c.len < 4 + (visit m c.data).len))
    (hf : fields (visit m c.data).type = some field) : reached fields m c.data c.len =
      visit m c.data :: reached fields m (c.take m (visit m c.data) field).data
        (c.take m (visit m c.data) field).len := by
  rw [reached, walk_take field h, List.takeWhile_cons_of_pos (by rw [Known, hf]; rfl), reached]

theorem reached_unknown (h : ¬ (c.len ≤ 4 ∨ c.len < 4 + (visit m c.data).len))
    (hf : fields (visit m c.data).type = none) : reached fields m c.data c.len = [] := by
  rw [reached, walk_cons h, List.takeWhile_cons_of_neg (by rw [Known, hf]; simp)]

theorem reached_idle (h : c.len ≤ 4 ∨ c.len < 4 + (visit m c.data).len) : reached fields m c.data c.len = [] := by
  rw [reached, walk_nil h, List.takeWhile_nil]

theorem safe_of_fits (hfit : ∀ v ∈ reached fields m c.data c.len, FitsField fields v) (hlo : lo ≤ c.data)
    (hhi : c.data + c.len ≤ hi) (h : Passes (pass fields m) c vs c') : ∀ a ∈ accesses fields m c', a.Safe lo hi := by
  induction h with
  | @refl c =>
    by_cases hidle : c.len ≤ 4
    · rw [accesses_idle hidle]
      exact List.forall_mem_nil _
    have hread : Access.Safe lo hi (.read c.data 4) := ⟨hlo, by omega⟩
    by_cases hshort : c.len < 4 + (visit m c.data).len
    · rw [accesses_short hidle hshort]
      exact List.forall_mem_singleton.mpr hread
    have hc : ¬ (c.len ≤ 4 ∨ c.len < 4 + (visit m c.data).len) := by omega
    cases hf : fields (visit m c.data).type with
    | none =>
      rw [accesses_unknown hc hf]
      exact List.forall_mem_singleton.mpr hread
    | some field =>
      rw [accesses_known hc hf]
      refine List.forall_mem_cons.mpr ⟨hread, ?_⟩
      apply (Get.safe_iff (v := visit m c.data) hlo (by simp only [visit] at hshort ⊢; omega)).mpr
      exact hfit _ (reached_known hc hf ▸ List.mem_cons_self) field hf
  | @next c t u e es h ht ih =>
    by_cases hc : c.len ≤ 4 ∨ c.len < 4 + (visit m c.data).len
    · rw [pass_leave hc] at h
      cases h
    cases hf : fields (visit m c.data).type with
    | none =>
      rw [pass_unknown hc hf] at h
      cases h
      exact ih hfit hlo hhi
    | some field =>
      rw [pass_known hc hf] at h
      cases h
      rw [reached_known hc hf] at hfit
      refine ih (fun v hv => hfit v (List.mem_cons_of_mem _ hv)) ?_ ?_
      · simp only [Cursor.take]
        omega
      · simp only [Cursor.take]
        omega

theorem fits_of_safe (hlo : lo ≤ c.data) (hhi : c.data + c.len ≤ hi)
    (h : ∀ vs c', Passes (pass fields m) c vs c' → ∀ a ∈ accesses fields m c', a.Safe lo hi) :
    ∀ v ∈ reached fields m c.data c.len, FitsField fields v := by
  induction hn : c.len using Nat.strong_induction_on generalizing c with
  | _ n ih =>
    subst hn
    by_cases hc : c.len ≤ 4 ∨ c.len < 4 + (visit m c.data).len
    · rw [reached_idle hc]
      exact List.forall_mem_nil _
    cases hf : fields (visit m c.data).type with
    | none =>
      rw [reached_unknown hc hf]
      exact List.forall_mem_nil _
    | some field =>
      rw [reached_known hc hf]
      refine List.forall_mem_cons.mpr ⟨?_, ?_⟩
      · intro field' hf'
        obtain rfl : field = field' := Option.some.inj (hf.symm.trans hf')
        have hsafe := h [] c .refl
        rw [accesses_known hc hf] at hsafe
        refine (Get.safe_iff hlo ?_).mp (List.forall_mem_cons.mp hsafe).2
        simp only [visit] at hc ⊢
        omega
      · refine ih (Cursor.take m c (visit m c.data) field).len ?_ ?_ ?_ ?_ rfl
        · simp only [Cursor.take]
          omega
        · simp only [Cursor.take]
          omega
        · simp only [Cursor.take]
          omega
        · intro vs c' hp
          exact h _ c' (.next (pass_known hc hf) hp)

/-- Over a body inside of the bounds, every pass keeps to them, to the values and to the arrays if and only if the
values that are reached fit their fields. -/
theorem safe_iff_fits (hlo : lo ≤ c.data) (hhi : c.data + c.len ≤ hi) :
    (∀ vs c', Passes (pass fields m) c vs c' → ∀ a ∈ accesses fields m c', a.Safe lo hi) ↔
      ∀ v ∈ reached fields m c.data c.len, FitsField fields v :=
  ⟨fits_of_safe hlo hhi, fun hfit _ _ h => safe_of_fits hfit hlo hhi h⟩

end

end TlvStreams
