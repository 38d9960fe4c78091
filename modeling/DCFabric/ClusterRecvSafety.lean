import DCFabric.ClusterRecvWorker
import DCFabric.LoopRuns

namespace DCFabric

open MessageFraming LoopRuns

namespace CClusterRecvWorker

-- one pass of the loop; a message goes with the number of bytes buffered when it is read
def pass (w : CClusterRecvWorker) : Pass CClusterRecvWorker (List UINT1 × ℕ) CClusterRecvWorker :=
  match w.m_loopBuffer.read ClusterHeader.size true with
  | none => .fault
  | some (none, _) => .leave w
  | some (some itf, _) =>
    if w.m_loopBuffer.length < ClusterHeader.msgLen itf then
      .leave w
    else if w.m_size < ClusterHeader.msgLen itf then
      .fault
    else
      match w.m_loopBuffer.read (ClusterHeader.msgLen itf) false with
      | none => .fault
      | some (none, m_loopBuffer) => .leave { w with m_loopBuffer }
      | some (some msg, m_loopBuffer) => .next (msg, w.m_loopBuffer.length) { w with m_loopBuffer }

variable {w w' : CClusterRecvWorker} {sockfd : INT4} {buffer tail xs : List UINT1}
  {trace : List (INT4 × List UINT1)} {handed : List (List UINT1 × ℕ)}

theorem processLoop_succ (fuel : ℕ) : processLoop sockfd (fuel + 1) w =
    match pass w with
    | .fault => none
    | .leave w' => some ([], w')
    | .next (msg, _) w' => (processLoop sockfd fuel w').map fun (msgs, w'') => ((sockfd, msg) :: msgs, w'') := by
  rcases hpeek : w.m_loopBuffer.read ClusterHeader.size true with _ | ⟨_ | itf, b⟩
  · simp only [processLoop, pass, hpeek]
  · simp only [processLoop, pass, hpeek]
  · by_cases hlen : w.m_loopBuffer.length < ClusterHeader.msgLen itf
    · simp only [processLoop, pass, hpeek, if_pos hlen]
    · by_cases hsize : w.m_size < ClusterHeader.msgLen itf
      · simp only [processLoop, pass, hpeek, if_neg hlen, if_pos hsize]
      · rcases hread : w.m_loopBuffer.read (ClusterHeader.msgLen itf) false with _ | ⟨_ | msg, b'⟩
        · simp only [processLoop, pass, hpeek, if_neg hlen, if_neg hsize, hread]
        · simp only [processLoop, pass, hpeek, if_neg hlen, if_neg hsize, hread]
        · simp only [processLoop, pass, hpeek, if_neg hlen, if_neg hsize, hread]
          cases processLoop sockfd fuel { w with m_loopBuffer := b' } <;> rfl

/-- The loop of `process` ends with some amount of fuel exactly when its passes come to an end. -/
theorem processLoop_iff_ends {msgs : List (INT4 × List UINT1)} : (∃ fuel, processLoop sockfd fuel w = some (msgs, w')) ↔
    ∃ handed, Ends pass w handed w' ∧ msgs = handed.map (fun m => (sockfd, m.1)) := by
  constructor
  · rintro ⟨fuel, h⟩
    induction fuel generalizing w msgs with
    | zero => cases h
    | succ fuel ih =>
      rw [processLoop_succ] at h
      cases hp : pass w with
      | fault =>
        rw [hp] at h
        cases h
      | leave w'' =>
        rw [hp] at h
        cases h
        exact ⟨[], .leave hp, rfl⟩
      | next e w'' =>
        obtain ⟨msg, n⟩ := e
        rw [hp] at h
        obtain ⟨⟨msgs', w''⟩, hl, he⟩ := Option.map_eq_some_iff.mp h
        cases he
        obtain ⟨handed, hends, rfl⟩ := ih hl
        exact ⟨(msg, n) :: handed, .next hp hends, rfl⟩
  · rintro ⟨handed, hends, rfl⟩
    induction hends with
    | leave hp =>
      refine ⟨1, ?_⟩
      rw [processLoop_succ, hp]
      rfl
    | next hp ht ih =>
      obtain ⟨fuel, hl⟩ := ih
      refine ⟨fuel + 1, ?_⟩
      rw [processLoop_succ, hp]
      simp only [hl]
      rfl

theorem pass_short (hw : w.Holds tail) (hl : tail.length < ClusterHeader.size) : pass w = .leave w := by
  have hcur : w.m_loopBuffer.m_curLen = tail.length := hw.contents ▸ hw.valid.contents_length.symm
  rw [pass, CLoopBuffer.read_short (by omega)]

theorem pass_header (hw : w.Holds tail) (hh : ClusterHeader.size ≤ tail.length) : pass w =
    if tail.length < ClusterHeader.msgLen tail then .leave w
    else if w.m_size < ClusterHeader.msgLen tail then .fault
    else
      match w.m_loopBuffer.read (ClusterHeader.msgLen tail) false with
      | none => .fault
      | some (none, m_loopBuffer) => .leave { w with m_loopBuffer }
      | some (some msg, m_loopBuffer) => .next (msg, tail.length) { w with m_loopBuffer } := by
  have hcur : w.m_loopBuffer.m_curLen = tail.length := hw.contents ▸ hw.valid.contents_length.symm
  have hlen : w.m_loopBuffer.length = tail.length := hcur
  simp only [pass, hw.valid.peek_eq (hh.trans hcur.ge), hw.contents, ClusterHeader.msgLen_take _ hh, hlen]

theorem pass_wait (hw : w.Holds tail) (hi : clusterFramer.Incomplete tail) : pass w = .leave w := by
  by_cases hh : ClusterHeader.size ≤ tail.length
  · rw [pass_header hw hh]
    exact if_pos (hi hh).2
  · exact pass_short hw (by omega)

theorem pass_overflow (hw : w.Holds tail) (hh : ClusterHeader.size ≤ tail.length)
    (hl : ClusterHeader.msgLen tail ≤ tail.length) (hs : w.m_size < ClusterHeader.msgLen tail) : pass w = .fault := by
  rw [pass_header hw hh, if_neg (by omega), if_pos hs]

structure SameSize (w w' : CClusterRecvWorker) : Prop where
  size : w'.m_size = w.m_size
  total : w'.m_loopBuffer.m_totalLen = w.m_loopBuffer.m_totalLen

theorem pass_message (hw : w.Holds tail) (hh : ClusterHeader.size ≤ tail.length)
    (hl : ClusterHeader.msgLen tail ≤ tail.length) (hs : ClusterHeader.msgLen tail ≤ w.m_size) :
    ∃ w', pass w = .next (tail.take (ClusterHeader.msgLen tail), tail.length) w' ∧
      w'.Holds (tail.drop (ClusterHeader.msgLen tail)) ∧ SameSize w w' := by
  have hcur : w.m_loopBuffer.m_curLen = tail.length := hw.contents ▸ hw.valid.contents_length.symm
  obtain ⟨b, hr, hv, hc⟩ := hw.valid.read_spec (hl.trans hcur.ge)
  rw [hw.contents] at hr hc
  refine ⟨{ w with m_loopBuffer := b }, ?_, ⟨hv, hc⟩, rfl, CLoopBuffer.read_total hr⟩
  rw [pass_header hw hh, if_neg (by omega), if_neg (by omega), hr]

/-- Following the declared lengths, every complete header that is met announces at least a header, and a
message longer than the worker's buffer never comes to its end, nor to 4G bytes. -/
def Acceptable (m_size : ℕ) (xs : List UINT1) : Prop :=
  ∀ (ms : List (List UINT1)) (rest : List UINT1), xs = ms.flatten ++ rest → (∀ m ∈ ms, clusterFramer.Message m) →
    ClusterHeader.size ≤ rest.length → ClusterHeader.size ≤ ClusterHeader.msgLen rest ∧
      (ClusterHeader.msgLen rest ≤ m_size ∨
        rest.length < ClusterHeader.msgLen rest ∧ rest.length + LOOP_BUFFER_EXT_SIZE ≤ 2 ^ 32)

variable {m_size : ℕ} {ys m rest left : List UINT1} {ms : List (List UINT1)}

theorem Acceptable.take (ha : Acceptable m_size (xs ++ ys)) : Acceptable m_size xs := by
  intro ms rest hx hm hr
  have hlen : (rest ++ ys).length = rest.length + ys.length := List.length_append
  obtain ⟨hge, hle⟩ := ha ms (rest ++ ys) (by rw [hx, List.append_assoc]) hm (by omega)
  rw [ClusterHeader.msgLen_append rest ys hr] at hge hle
  refine ⟨hge, ?_⟩
  omega

theorem Acceptable.drop_flatten (ha : Acceptable m_size (ms.flatten ++ xs))
    (hm : ∀ m ∈ ms, clusterFramer.Message m) : Acceptable m_size xs := by
  intro ms' rest hx hms' hr
  apply ha (ms ++ ms') rest
  · rw [hx, List.flatten_append, List.append_assoc]
  · exact List.forall_mem_append.mpr ⟨hm, hms'⟩
  · exact hr

theorem Acceptable.drop (ha : Acceptable m_size (m ++ xs)) (hm : clusterFramer.Message m) : Acceptable m_size xs := by
  have hone : Acceptable m_size ([m].flatten ++ xs) := by
    rw [List.flatten_singleton]
    exact ha
  exact hone.drop_flatten (List.forall_mem_singleton.mpr hm)

theorem Acceptable.announces (ha : Acceptable m_size xs) (hr : ClusterHeader.size ≤ xs.length) :
    ClusterHeader.size ≤ ClusterHeader.msgLen xs ∧ (ClusterHeader.msgLen xs ≤ m_size ∨
      xs.length < ClusterHeader.msgLen xs ∧ xs.length + LOOP_BUFFER_EXT_SIZE ≤ 2 ^ 32) :=
  ha [] xs rfl (List.forall_mem_nil _) hr

def InBounds (handed : List (List UINT1 × ℕ)) : Prop :=
  ∀ m ∈ handed, ClusterHeader.size ≤ m.1.length ∧ m.1.length ≤ m.2

theorem InBounds.cons {e : List UINT1 × ℕ} (he : ClusterHeader.size ≤ e.1.length ∧ e.1.length ≤ e.2)
    (hin : InBounds handed) : InBounds (e :: handed) := List.forall_mem_cons.mpr ⟨he, hin⟩

theorem loop_ends (hw : w.Holds tail) (ha : Acceptable w.m_size tail) :
    ∃ handed w' left, Ends pass w handed w' ∧ InBounds handed ∧ w'.Holds left ∧ SameSize w w' ∧
      clusterFramer.Frames tail (handed.map Prod.fst) left := by
  induction hn : tail.length using Nat.strong_induction_on generalizing w tail with
  | _ n ih =>
    by_cases hi : clusterFramer.Incomplete tail
    · exact ⟨[], w, tail, .leave (pass_wait hw hi), List.forall_mem_nil _, hw, ⟨rfl, rfl⟩, Framer.Frames.nil hi⟩
    · have hh : ClusterHeader.size ≤ tail.length := by
        by_contra hh
        exact hi (fun h => absurd h hh)
      obtain ⟨hge, hle⟩ := ha.announces hh
      have hl : ClusterHeader.msgLen tail ≤ tail.length := by
        by_contra hl
        exact hi (fun _ => ⟨hge, not_le.mp hl⟩)
      obtain ⟨w₁, hp, hw₁, hsame⟩ := pass_message hw hh hl (by omega)
      have hm : clusterFramer.Message (tail.take (ClusterHeader.msgLen tail)) := Framer.Message.of_take hge hl
      have hcut := List.take_append_drop (ClusterHeader.msgLen tail) tail
      have hrest : Acceptable w₁.m_size (tail.drop (ClusterHeader.msgLen tail)) := by
        rw [hsame.size]
        exact Acceptable.drop (hcut.symm ▸ ha) hm
      have h8 : ClusterHeader.size = 8 := rfl
      obtain ⟨handed, w', left, hends, hin, hw', hsame', hf⟩ :=
        ih _ (by rw [← hn, List.length_drop]; omega) hw₁ hrest rfl
      have hframes := Framer.Frames.cons hm hf
      have hlen : (tail.take (ClusterHeader.msgLen tail)).length = ClusterHeader.msgLen tail := by
        rw [List.length_take]
        omega
      rw [hcut] at hframes
      refine ⟨(tail.take (ClusterHeader.msgLen tail), tail.length) :: handed, w', left, .next hp hends, ?_, hw',
        ⟨hsame'.size.trans hsame.size, hsame'.total.trans hsame.total⟩, hframes⟩
      apply InBounds.cons _ hin
      rw [hlen]
      exact ⟨hge, hl⟩

/-- One call of `process` whose loop ends without a fault and hands on only messages of a fitting length. -/
def Handles (w : CClusterRecvWorker) (buffer : List UINT1) (w' : CClusterRecvWorker) : Prop :=
  ∃ written b, w.m_loopBuffer.write buffer = some (written, b) ∧
    if written then ∃ handed, Ends pass { w with m_loopBuffer := b } handed w' ∧ InBounds handed
    else w' = { w with m_loopBuffer := b }

def HandlesAll : CClusterRecvWorker → List (List UINT1) → Prop
  | _, [] => True
  | w, buffer :: chunks => ∃ w', w.Handles buffer w' ∧ w'.HandlesAll chunks

def grownTotal (w : CClusterRecvWorker) (len : ℕ) : ℕ :=
  if len ≤ w.m_loopBuffer.m_totalLen then w.m_loopBuffer.m_totalLen
  else w.m_loopBuffer.m_totalLen + max LOOP_BUFFER_EXT_SIZE (len - w.m_loopBuffer.m_totalLen)

theorem room_of_acceptable (ha : Acceptable m_size (tail ++ buffer)) (hi : clusterFramer.Incomplete tail)
    (hmax : buffer.length ≤ max_recv_buffer_size)
    (hsize : m_size + max_recv_buffer_size + LOOP_BUFFER_EXT_SIZE + ClusterHeader.size < 2 ^ 32) :
    tail.length + buffer.length + LOOP_BUFFER_EXT_SIZE ≤ 2 ^ 32 := by
  by_cases hh : ClusterHeader.size ≤ tail.length
  · have hlt : tail.length < ClusterHeader.msgLen tail := (hi hh).2
    have hlen : (tail ++ buffer).length = tail.length + buffer.length := List.length_append
    obtain ⟨-, hle⟩ := ha.announces (by omega)
    rw [ClusterHeader.msgLen_append tail buffer hh, hlen] at hle
    omega
  · omega

theorem handles_of_acceptable (hw : w.Holds tail)
    (ha : Acceptable w.m_size (tail ++ buffer)) (hb : buffer ≠ [])
    (hroom : tail.length + buffer.length + LOOP_BUFFER_EXT_SIZE ≤ 2 ^ 32) :
    ∃ w' left ms, w.Handles buffer w' ∧ w'.Holds left ∧ clusterFramer.Frames (tail ++ buffer) ms left ∧
      w'.m_size = w.m_size ∧ w'.m_loopBuffer.m_totalLen = w.grownTotal (tail.length + buffer.length) := by
  have hcur : w.m_loopBuffer.m_curLen = tail.length := hw.contents ▸ hw.valid.contents_length.symm
  obtain ⟨b, hr, hv, hc⟩ := hw.valid.write_spec hb (by omega)
  rw [hw.contents] at hc
  have htotal := CLoopBuffer.write_total hb (by omega) hr
  rw [hcur] at htotal
  obtain ⟨handed, w', left, hends, hin, hw', hsame, hf⟩ := loop_ends (w := { w with m_loopBuffer := b }) ⟨hv, hc⟩ ha
  exact ⟨w', left, _, ⟨true, b, hr, handed, hends, hin⟩, hw', hf, hsame.size, hsame.total.trans htotal⟩

theorem handlesAll_of_acceptable {chunks : List (List UINT1)} (hw : w.Holds tail)
    (hi : clusterFramer.Incomplete tail) (hmax : ∀ c ∈ chunks, c.length ≤ max_recv_buffer_size)
    (hsize : w.m_size + max_recv_buffer_size + LOOP_BUFFER_EXT_SIZE + ClusterHeader.size < 2 ^ 32)
    (ha : Acceptable w.m_size (tail ++ chunks.flatten)) : w.HandlesAll chunks := by
  induction chunks generalizing w tail with
  | nil => trivial
  | cons buffer chunks ih =>
    obtain ⟨hmax₁, hmax₂⟩ := List.forall_mem_cons.mp hmax
    rw [List.flatten_cons, ← List.append_assoc] at ha
    by_cases hb : buffer = []
    · subst hb
      rw [List.append_nil] at ha
      exact ⟨w, ⟨false, w.m_loopBuffer, rfl, rfl⟩, ih hw hi hmax₂ hsize ha⟩
    · have hroom := room_of_acceptable ha.take hi hmax₁ hsize
      obtain ⟨w', left, ms, hh, hw', hf, hsz, -⟩ := handles_of_acceptable hw ha.take hb hroom
      refine ⟨w', hh, ?_⟩
      apply ih hw' hf.tail hmax₂
      · rw [hsz]
        exact hsize
      · rw [hsz]
        rw [hf.spells, List.append_assoc] at ha
        exact ha.drop_flatten hf.messages

inductive Feeds : CClusterRecvWorker → List (List UINT1) → CClusterRecvWorker → Prop
  | nil {w : CClusterRecvWorker} : Feeds w [] w
  | cons {w w₁ w' : CClusterRecvWorker} {buffer : List UINT1} {chunks : List (List UINT1)}
      (h : w.Handles buffer w₁) (hf : Feeds w₁ chunks w') : Feeds w (buffer :: chunks) w'

variable {w₁ : CClusterRecvWorker} {chunks chunks' : List (List UINT1)}

theorem Handles.unique (h : w.Handles buffer w') (h' : w.Handles buffer w₁) : w' = w₁ := by
  obtain ⟨written, b, hr, hl⟩ := h
  obtain ⟨written', b', hr', hl'⟩ := h'
  rw [hr] at hr'
  cases hr'
  cases written with
  | false => exact hl.trans hl'.symm
  | true =>
    obtain ⟨handed, hends, -⟩ := hl
    obtain ⟨handed', hends', -⟩ := hl'
    exact (hends.unique hends').2

theorem Feeds.append (hf : Feeds w chunks w₁) (hf' : Feeds w₁ chunks' w') : Feeds w (chunks ++ chunks') w' := by
  induction hf with
  | nil => exact hf'
  | cons h hf ih => exact .cons h (ih hf')

theorem HandlesAll.after (hf : Feeds w chunks w₁) (h : w.HandlesAll (chunks ++ chunks')) : w₁.HandlesAll chunks' := by
  induction hf with
  | nil => exact h
  | cons hh hf ih =>
    obtain ⟨w₂, hh₂, hall⟩ := h
    rw [hh₂.unique hh] at hall
    exact ih hall

def singles (bytes : List UINT1) : List (List UINT1) := bytes.map (fun x => [x])

theorem singles_flatten (bytes : List UINT1) : (singles bytes).flatten = bytes := by
  induction bytes with
  | nil => rfl
  | cons x bytes ih => exact congrArg (x :: ·) ih

theorem singles_length (bytes : List UINT1) : ∀ c ∈ singles bytes, c.length ≤ max_recv_buffer_size := by
  intro c hc
  obtain ⟨x, -, rfl⟩ := List.mem_map.mp hc
  exact (by decide : 1 ≤ max_recv_buffer_size)

theorem Fits.acceptable (hs : w.Fits xs) : Acceptable w.m_size xs := by
  intro ms rest hx hm hr
  obtain ⟨hge, hle⟩ := hs ms rest hx hm hr
  exact ⟨hge, Or.inl hle⟩

theorem Fits.tail_lt (hs : w.Fits tail) (hi : clusterFramer.Incomplete tail) :
    tail.length < ClusterHeader.size + w.m_size := by
  by_cases hh : ClusterHeader.size ≤ tail.length
  · have hfit : ClusterHeader.msgLen tail ≤ w.m_size := (hs [] tail rfl (List.forall_mem_nil _) hh).2
    have hlt : tail.length < ClusterHeader.msgLen tail := (hi hh).2
    omega
  · omega

/-- Fed byte by byte, messages that fit the worker leave its buffers as large as they were. -/
theorem feeds_singles {bytes : List UINT1} (hw : w.Holds tail) (hi : clusterFramer.Incomplete tail)
    (hs : w.Fits (tail ++ bytes)) (hsize : ClusterHeader.size + w.m_size ≤ w.m_loopBuffer.m_totalLen)
    (hroom : w.m_loopBuffer.m_totalLen + LOOP_BUFFER_EXT_SIZE ≤ 2 ^ 32) :
    ∃ w' left ms, Feeds w (singles bytes) w' ∧ w'.Holds left ∧ clusterFramer.Frames (tail ++ bytes) ms left ∧
      SameSize w w' := by
  induction bytes generalizing w tail with
  | nil => exact ⟨w, tail, [], .nil, hw, by rw [List.append_nil]; exact Framer.Frames.nil hi, rfl, rfl⟩
  | cons x bytes ih =>
    have hcons : tail ++ x :: bytes = tail ++ [x] ++ bytes := by rw [List.append_assoc, List.singleton_append]
    rw [hcons] at hs
    have hfirst : w.Fits (tail ++ [x]) := Framer.Announces.take hs
    have hlt := Fits.tail_lt (w := w) (Framer.Announces.take hfirst) hi
    have h1 : [x].length = 1 := rfl
    obtain ⟨w₁, left₁, ms₁, hh, hw₁, hf, hsz, htotal⟩ :=
      handles_of_acceptable hw hfirst.acceptable (List.cons_ne_nil x []) (by omega)
    rw [grownTotal, if_pos (by omega)] at htotal
    have hs₁ : w₁.Fits (left₁ ++ bytes) := by
      rw [hf.spells, List.append_assoc] at hs
      rw [Fits, hsz]
      exact Framer.Announces.drop_flatten hs hf.messages
    obtain ⟨w', left, ms, hfeed, hw', hf', hsame⟩ := ih hw₁ hf.tail hs₁ (by omega) (by omega)
    refine ⟨w', left, ms₁ ++ ms, .cons hh hfeed, hw', ?_, hsame.size.trans hsz, hsame.total.trans htotal⟩
    rw [hcons]
    exact hf.append hf'

theorem incomplete_take {k : ℕ} (hge : ClusterHeader.size ≤ ClusterHeader.msgLen rest)
    (hk : k < ClusterHeader.msgLen rest) : clusterFramer.Incomplete (rest.take k) := by
  intro hh
  have hlen : (rest.take k).length ≤ k := List.length_take_le k rest
  have hsize : ClusterHeader.msgLen (rest.take k) = ClusterHeader.msgLen rest := by
    conv_rhs => rw [← List.take_append_drop k rest]
    exact (ClusterHeader.msgLen_append _ _ hh).symm
  show ClusterHeader.size ≤ ClusterHeader.msgLen (rest.take k) ∧
    (rest.take k).length < ClusterHeader.msgLen (rest.take k)
  omega

/-- The unfinished message `rest` is received up to its byte `n`, and the buffer still waits there. -/
structure Waits (rest : List UINT1) (n : ℕ) : Prop where
  header : ClusterHeader.size ≤ ClusterHeader.msgLen rest
  open_ : n < ClusterHeader.msgLen rest
  room : n + LOOP_BUFFER_EXT_SIZE ≤ 2 ^ 32
  length : n ≤ rest.length

variable {n k j : ℕ}

theorem Waits.mono (h : Waits rest n) (hk : k ≤ n) : Waits rest k := by
  obtain ⟨h1, h2, h3, h4⟩ := h
  constructor <;> omega

theorem handles_waiting (h : Waits rest j) (hw : w.Holds (rest.take k)) (hk : k < j) :
    ∃ w', w.Handles ((rest.take j).drop k) w' ∧ w'.Holds (rest.take j) ∧ w'.m_size = w.m_size ∧
      w'.m_loopBuffer.m_totalLen = w.grownTotal j := by
  obtain ⟨hge, hopen, hroom, hlength⟩ := h
  have hcur : w.m_loopBuffer.m_curLen = (rest.take k).length := hw.contents ▸ hw.valid.contents_length.symm
  have hlk : (rest.take k).length = k := List.length_take_of_le (by omega)
  have hcut : rest.take k ++ (rest.take j).drop k = rest.take j := by
    have htake : rest.take k = (rest.take j).take k := by rw [List.take_take, min_eq_left (by omega)]
    rw [htake, List.take_append_drop]
  have hlen : ((rest.take j).drop k).length = j - k := by
    rw [List.length_drop, List.length_take_of_le hlength]
  have hne : (rest.take j).drop k ≠ [] := by
    intro hnil
    rw [hnil, List.length_nil] at hlen
    omega
  obtain ⟨b, hr, hv, hc⟩ := hw.valid.write_spec hne (by omega)
  rw [hw.contents, hcut] at hc
  have htotal := CLoopBuffer.write_total hne (by omega) hr
  rw [hcur, hlk, hlen, Nat.add_sub_cancel' hk.le] at htotal
  have hholds : Holds { w with m_loopBuffer := b } (rest.take j) := ⟨hv, hc⟩
  refine ⟨{ w with m_loopBuffer := b }, ⟨true, b, hr, [], ?_, List.forall_mem_nil _⟩, hholds, rfl, htotal⟩
  exact .leave (pass_wait hholds (incomplete_take hge hopen))

theorem waiting_chunk_length (h : Waits rest j) : ((rest.take j).drop k).length = j - k := by
  rw [List.length_drop, List.length_take_of_le h.length]

/-- The bytes of `rest` from `k` to `n` are fed to the worker in some chunks. -/
def FeedsTo (rest : List UINT1) (k n : ℕ) (w w' : CClusterRecvWorker) : Prop :=
  ∃ chunks, (∀ c ∈ chunks, c.length ≤ max_recv_buffer_size) ∧ rest.take k ++ chunks.flatten = rest.take n ∧
    Feeds w chunks w'

theorem FeedsTo.refl : FeedsTo rest n n w w := ⟨[], List.forall_mem_nil _, List.append_nil _, .nil⟩

theorem FeedsTo.trans (h : FeedsTo rest k j w w₁) (h' : FeedsTo rest j n w₁ w') : FeedsTo rest k n w w' := by
  obtain ⟨chunks, hmax, hcut, hfeed⟩ := h
  obtain ⟨chunks', hmax', hcut', hfeed'⟩ := h'
  refine ⟨chunks ++ chunks', List.forall_mem_append.mpr ⟨hmax, hmax'⟩, ?_, hfeed.append hfeed'⟩
  rw [List.flatten_append, ← List.append_assoc, hcut, hcut']

theorem feedsTo_chunk (h : Waits rest j) (hw : w.Holds (rest.take k)) (hk : k < j) (hj : j ≤ k + max_recv_buffer_size) :
    ∃ w', FeedsTo rest k j w w' ∧ w'.Holds (rest.take j) ∧ w'.m_size = w.m_size ∧
      w'.m_loopBuffer.m_totalLen = w.grownTotal j := by
  obtain ⟨w', hh, hw', hsz, htotal⟩ := handles_waiting h hw hk
  refine ⟨w', ⟨[(rest.take j).drop k], ?_, ?_, .cons hh .nil⟩, hw', hsz, htotal⟩
  · refine List.forall_mem_singleton.mpr ?_
    rw [waiting_chunk_length h]
    omega
  · have htake : rest.take k = (rest.take j).take k := by rw [List.take_take, min_eq_left hk.le]
    rw [List.flatten_singleton, htake, List.take_append_drop]

/-- A waiting worker can be fed up to `n` in chunks that its buffer has room for. -/
theorem feedsTo_waiting (h : Waits rest n) (hw : w.Holds (rest.take k)) (hk : k ≤ n) :
    ∃ w', FeedsTo rest k n w w' ∧ w'.Holds (rest.take n) ∧ w'.m_size = w.m_size ∧
      (n ≤ w.m_loopBuffer.m_totalLen → w'.m_loopBuffer.m_totalLen = w.m_loopBuffer.m_totalLen) := by
  induction hd : n - k generalizing w k with
  | zero =>
    obtain rfl : k = n := by omega
    exact ⟨w, .refl, hw, rfl, fun _ => rfl⟩
  | succ d ih =>
    have hone : 1 ≤ max_recv_buffer_size := by decide
    obtain ⟨w₁, hfeed₁, hw₁, hsz₁, htotal₁⟩ :=
      feedsTo_chunk (h.mono (by omega)) hw (Nat.lt_succ_self k) (by omega)
    obtain ⟨w', hfeed, hw', hsz, htotal⟩ := ih hw₁ (by omega) (by omega)
    refine ⟨w', hfeed₁.trans hfeed, hw', hsz.trans hsz₁, ?_⟩
    intro hle
    rw [grownTotal, if_pos (by omega)] at htotal₁
    rw [htotal (by omega), htotal₁]

/-- A worker whose buffer is full can be kept so: a chunk that is larger than the usual extension is given
exactly the space it needs. -/
theorem feedsTo_full (h : Waits rest n) (hw : w.Holds (rest.take k)) (hfull : w.m_loopBuffer.m_totalLen = k)
    (hk : k + LOOP_BUFFER_EXT_SIZE ≤ n) :
    ∃ w', FeedsTo rest k n w w' ∧ w'.Holds (rest.take n) ∧ w'.m_loopBuffer.m_totalLen = n := by
  induction hd : n - k using Nat.strong_induction_on generalizing w k with
  | _ d ih =>
    have hext : LOOP_BUFFER_EXT_SIZE = 102400 := rfl
    have hmax : max_recv_buffer_size = 204800 := rfl
    have hgrown {j : ℕ} (hj : k + LOOP_BUFFER_EXT_SIZE ≤ j) : w.grownTotal j = j := by
      rw [grownTotal, hfull, if_neg (by omega), max_eq_right (by omega)]
      omega
    by_cases hlast : n ≤ k + max_recv_buffer_size
    · obtain ⟨w', hfeed, hw', -, htotal⟩ := feedsTo_chunk h hw (by omega) hlast
      exact ⟨w', hfeed, hw', htotal.trans (hgrown hk)⟩
    · obtain ⟨w₁, hfeed₁, hw₁, -, htotal₁⟩ :=
        feedsTo_chunk (j := k + LOOP_BUFFER_EXT_SIZE) (h.mono hk) hw (by omega) (by omega)
      obtain ⟨w', hfeed, hw', htotal⟩ :=
        ih (n - (k + LOOP_BUFFER_EXT_SIZE)) (by omega) hw₁ (htotal₁.trans (hgrown (le_refl _))) (by omega) rfl
      exact ⟨w', hfeed₁.trans hfeed, hw', htotal⟩

/-- Every way of cutting the stream into chunks is handled. -/
def Withstands (w : CClusterRecvWorker) (xs : List UINT1) : Prop :=
  ∀ chunks : List (List UINT1), (∀ c ∈ chunks, c.length ≤ max_recv_buffer_size) → chunks.flatten = xs →
    w.HandlesAll chunks

theorem Withstands.after (h : w.Withstands (xs ++ ys)) (hmax : ∀ c ∈ chunks, c.length ≤ max_recv_buffer_size)
    (hx : chunks.flatten = xs) (hf : Feeds w chunks w') : w'.Withstands ys := by
  intro chunks' hmax' hy
  apply HandlesAll.after hf
  apply h
  · exact List.forall_mem_append.mpr ⟨hmax, hmax'⟩
  · rw [List.flatten_append, hx, hy]

theorem Withstands.feedsTo (h : w.Withstands (rest.drop k)) (hf : FeedsTo rest k n w w') :
    w'.Withstands (rest.drop n) := by
  obtain ⟨chunks, hmax, hcut, hfeed⟩ := hf
  apply Withstands.after _ hmax rfl hfeed
  have hrest : rest.take k ++ (chunks.flatten ++ rest.drop n) = rest.take k ++ rest.drop k := by
    rw [← List.append_assoc, hcut, List.take_append_drop, List.take_append_drop]
  rw [List.append_cancel_left hrest]
  exact h

theorem Withstands.first {x : UINT1} (h : w.Withstands (x :: xs)) : ∃ w', w.Handles [x] w' := by
  obtain ⟨w', hh, -⟩ := h ([x] :: singles xs)
    (List.forall_mem_cons.mpr ⟨(by decide : 1 ≤ max_recv_buffer_size), singles_length xs⟩)
    (by rw [List.flatten_cons, singles_flatten, List.singleton_append])
  exact ⟨w', hh⟩

/-- The next byte is written to the buffer and the loop that follows ends. -/
theorem Withstands.next (h : w.Withstands (rest.drop n)) (hw : w.Holds (rest.take n)) (hn : n < rest.length)
    (hroom : n + 1 + LOOP_BUFFER_EXT_SIZE ≤ 2 ^ 32) :
    ∃ w₁ handed w', w₁.Holds (rest.take (n + 1)) ∧ w₁.m_size = w.m_size ∧ Ends pass w₁ handed w' ∧ InBounds handed := by
  rw [List.drop_eq_getElem_cons hn] at h
  obtain ⟨w', written, b, hr, hl⟩ := h.first
  have hcur : w.m_loopBuffer.m_curLen = (rest.take n).length := hw.contents ▸ hw.valid.contents_length.symm
  have hlen : (rest.take n).length = n := List.length_take_of_le hn.le
  have h1 : [rest[n]].length = 1 := rfl
  obtain ⟨b', hr', hv, hc⟩ := hw.valid.write_spec (List.cons_ne_nil rest[n] []) (by omega)
  rw [hr] at hr'
  cases hr'
  rw [hw.contents, ← List.take_succ_eq_append_getElem hn] at hc
  obtain ⟨handed, hends, hin⟩ := hl
  exact ⟨{ w with m_loopBuffer := b }, handed, w', ⟨hv, hc⟩, rfl, hends, hin⟩

/-- A header that announces zero bytes (its signed length is -8) keeps the loop going for ever. -/
theorem zero_size_not_ends (hw : w.Holds tail) (hh : ClusterHeader.size ≤ tail.length)
    (hz : ClusterHeader.msgLen tail = 0) : ¬Ends pass w handed w' := by
  apply not_ends_of_next (I := fun w => w.Holds tail) _ hw
  intro w hw
  obtain ⟨w₁, hp, hw₁, -⟩ := pass_message hw hh (by omega) (by omega)
  rw [hz, List.drop_zero] at hw₁
  exact ⟨_, w₁, hp, hw₁⟩

theorem short_size_not_in_bounds (hw : w.Holds tail) (hh : ClusterHeader.size ≤ tail.length)
    (hs : ClusterHeader.size ≤ w.m_size) (hz : ClusterHeader.msgLen tail < ClusterHeader.size)
    (hends : Ends pass w handed w') : ¬InBounds handed := by
  intro hin
  obtain ⟨w₁, hp, -, -⟩ := pass_message hw hh (by omega) (by omega)
  obtain ⟨handed', rfl, -⟩ := hends.of_next hp
  have hge : ClusterHeader.size ≤ (tail.take (ClusterHeader.msgLen tail)).length := (hin _ List.mem_cons_self).1
  rw [List.length_take] at hge
  omega

variable (w) in
/-- The sizes of a worker as `process` finds them before it has met a message that does not fit. -/
structure Sized : Prop where
  header : ClusterHeader.size ≤ w.m_size
  total : ClusterHeader.size + w.m_size ≤ w.m_loopBuffer.m_totalLen
  room : w.m_loopBuffer.m_totalLen + 2 * LOOP_BUFFER_EXT_SIZE ≤ 2 ^ 32

theorem Withstands.header_size (h : w.Withstands (rest.drop 7)) (hw : w.Holds (rest.take 7)) (hs : w.Sized)
    (hr : ClusterHeader.size ≤ rest.length) : ClusterHeader.size ≤ ClusterHeader.msgLen rest := by
  have h8 : ClusterHeader.size = 8 := rfl
  have hroom := hs.room
  have hheader := hs.header
  have htotal := hs.total
  obtain ⟨w₁, handed, w', hw₁, hsz, hends, hin⟩ := h.next hw (by omega) (by omega)
  have hlen : (rest.take (7 + 1)).length = 8 := List.length_take_of_le hr
  have hsize : ClusterHeader.msgLen (rest.take (7 + 1)) = ClusterHeader.msgLen rest := ClusterHeader.msgLen_take rest hr
  by_contra hlt
  apply short_size_not_in_bounds hw₁ (by omega) (by omega) _ hends hin
  rw [hsize]
  omega

theorem Withstands.message_end (h : w.Withstands (rest.drop 7)) (hw : w.Holds (rest.take 7))
    (hr : ClusterHeader.msgLen rest ≤ rest.length) (hge : ClusterHeader.size ≤ ClusterHeader.msgLen rest)
    (hroom : ClusterHeader.msgLen rest + LOOP_BUFFER_EXT_SIZE ≤ 2 ^ 32) : ClusterHeader.msgLen rest ≤ w.m_size := by
  have h8 : ClusterHeader.size = 8 := rfl
  obtain ⟨n, hn⟩ : ∃ n, ClusterHeader.msgLen rest = n + 1 := Nat.exists_eq_succ_of_ne_zero (by omega)
  have hwaits : Waits rest n := by constructor <;> omega
  obtain ⟨w₁, hfeed, hw₁, hsz₁, -⟩ := feedsTo_waiting hwaits hw (by omega)
  obtain ⟨w₂, handed, w', hw₂, hsz₂, hends, -⟩ := (h.feedsTo hfeed).next hw₁ (by omega) (by omega)
  have hlen : (rest.take (n + 1)).length = n + 1 := List.length_take_of_le (by omega)
  have hsize : ClusterHeader.msgLen (rest.take (n + 1)) = ClusterHeader.msgLen rest := by
    conv_rhs => rw [← List.take_append_drop (n + 1) rest]
    exact (ClusterHeader.msgLen_append _ _ (by omega)).symm
  by_contra hlt
  apply hends.not_fault
  apply pass_overflow hw₂ <;> omega

theorem Withstands.below_4G (h : w.Withstands (rest.drop 7)) (hw : w.Holds (rest.take 7)) (hs : w.Sized)
    (hge : ClusterHeader.size ≤ ClusterHeader.msgLen rest)
    (hopen : 2 ^ 32 < ClusterHeader.msgLen rest + LOOP_BUFFER_EXT_SIZE) :
    rest.length + LOOP_BUFFER_EXT_SIZE ≤ 2 ^ 32 := by
  have h8 : ClusterHeader.size = 8 := rfl
  have hext : LOOP_BUFFER_EXT_SIZE = 102400 := rfl
  have hroom := hs.room
  have htotal := hs.total
  by_contra hlong
  have hwaits : Waits rest (2 ^ 32 - LOOP_BUFFER_EXT_SIZE) := by constructor <;> omega
  obtain ⟨w₁, hfeed₁, hw₁, hsz₁, htotal₁⟩ :=
    feedsTo_waiting (n := w.m_loopBuffer.m_totalLen) (hwaits.mono (by omega)) hw (by omega)
  obtain ⟨w₂, hfeed₂, hw₂, htotal₂⟩ := feedsTo_full hwaits hw₁ (htotal₁ (le_refl _)) (by omega)
  have hnext := h.feedsTo (hfeed₁.trans hfeed₂)
  have hlt : 2 ^ 32 - LOOP_BUFFER_EXT_SIZE < rest.length := by omega
  have hcur : w₂.m_loopBuffer.m_curLen = (rest.take (2 ^ 32 - LOOP_BUFFER_EXT_SIZE)).length :=
    hw₂.contents ▸ hw₂.valid.contents_length.symm
  rw [List.length_take_of_le hlt.le] at hcur
  rw [List.drop_eq_getElem_cons hlt] at hnext
  obtain ⟨w', written, b, hr, -⟩ := hnext.first
  rw [hw₂.valid.write_wraps (by omega) (by omega)] at hr
  cases hr

theorem Withstands.announces (h : w.Withstands (ms.flatten ++ rest)) (hw : w.Holds []) (hs : w.Sized)
    (hm : ∀ m ∈ ms, clusterFramer.Message m ∧ m.length ≤ w.m_size) (hr : ClusterHeader.size ≤ rest.length) :
    ClusterHeader.size ≤ ClusterHeader.msgLen rest ∧ (ClusterHeader.msgLen rest ≤ w.m_size ∨
      rest.length < ClusterHeader.msgLen rest ∧ rest.length + LOOP_BUFFER_EXT_SIZE ≤ 2 ^ 32) := by
  have h8 : ClusterHeader.size = 8 := rfl
  have hroom := hs.room
  have hframes : clusterFramer.Frames (ms.flatten ++ rest.take 7) ms (rest.take 7) := by
    refine ⟨rfl, fun m hmem => (hm m hmem).1, ?_⟩
    intro hh
    have hle : 8 ≤ (rest.take 7).length := hh
    have hlen := List.length_take_le 7 rest
    omega
  have hfits : w.Fits (ms.flatten ++ rest.take 7) := by
    refine hframes.announces ?_ ?_
    · exact fun m hmem => ⟨(hm m hmem).1.1, (hm m hmem).2⟩
    · intro hh
      have hle : 8 ≤ (rest.take 7).length := hh
      have hlen := List.length_take_le 7 rest
      omega
  have hempty : clusterFramer.Incomplete [] := fun hh => absurd hh (by decide)
  obtain ⟨w₁, left, ms', hfeed, hw₁, hf, hsame⟩ := feeds_singles hw hempty hfits hs.total (by omega)
  obtain ⟨-, rfl⟩ := hf.unique hframes
  have hs₁ : w₁.Sized := by
    constructor
    · exact hs.header.trans_eq hsame.size.symm
    · rw [hsame.size, hsame.total]
      exact hs.total
    · rw [hsame.total]
      exact hs.room
  have hcut : ms.flatten ++ rest = (ms.flatten ++ rest.take 7) ++ rest.drop 7 := by
    rw [List.append_assoc, List.take_append_drop]
  rw [hcut] at h
  have h₁ : w₁.Withstands (rest.drop 7) := h.after (singles_length _) (singles_flatten _) hfeed
  have hge := h₁.header_size hw₁ hs₁ hr
  refine ⟨hge, ?_⟩
  rw [← hsame.size]
  by_cases hopen : 2 ^ 32 < ClusterHeader.msgLen rest + LOOP_BUFFER_EXT_SIZE
  · have hlong := h₁.below_4G hw₁ hs₁ hge hopen
    omega
  · by_cases hend : ClusterHeader.msgLen rest ≤ rest.length
    · exact Or.inl (h₁.message_end hw₁ hend hge (by omega))
    · right
      omega

theorem Withstands.acceptable (h : w.Withstands xs) (hw : w.Holds []) (hs : w.Sized) : Acceptable w.m_size xs := by
  have hall : ∀ (ms : List (List UINT1)) (rest : List UINT1), xs = ms.flatten ++ rest →
      (∀ m ∈ ms, clusterFramer.Message m) → ∀ m ∈ ms, m.length ≤ w.m_size := by
    intro ms
    induction ms using List.reverseRecOn with
    | nil => exact fun _ _ _ => List.forall_mem_nil _
    | append_singleton ms m ih =>
      intro rest hx hm
      obtain ⟨hms, hlast⟩ := List.forall_mem_append.mp hm
      have hmsg : clusterFramer.Message m := hlast m List.mem_cons_self
      have hx' : xs = ms.flatten ++ (m ++ rest) := by
        rw [hx, List.flatten_append, List.flatten_singleton, List.append_assoc]
      have hfit := ih _ hx' hms
      have hlen : (m ++ rest).length = m.length + rest.length := List.length_append
      have hhead : ClusterHeader.size ≤ m.length := hmsg.1
      have hsize : ClusterHeader.msgLen (m ++ rest) = m.length := hmsg.size_append rest
      obtain ⟨-, hle⟩ := Withstands.announces (hx' ▸ h) hw hs (fun m hmem => ⟨hms m hmem, hfit m hmem⟩)
        (by omega)
      refine List.forall_mem_append.mpr ⟨hfit, List.forall_mem_singleton.mpr ?_⟩
      omega
  intro ms rest hx hm hr
  exact Withstands.announces (hx ▸ h) hw hs (fun m hmem => ⟨hm m hmem, hall ms rest hx hm m hmem⟩) hr

theorem new_sized : new.Sized := by
  have hsize : new.m_size = 13926412 := rfl
  have htotal : new.m_loopBuffer.m_totalLen = 2 * 13926412 := rfl
  constructor
  · rw [hsize]
    decide
  · rw [hsize, htotal]
    decide
  · rw [htotal]
    decide

theorem withstands_iff : new.Withstands xs ↔ Acceptable new.m_size xs := by
  constructor
  · intro h
    exact h.acceptable new_holds new_sized
  · intro ha chunks hmax hx
    apply handlesAll_of_acceptable new_holds
    · exact fun hh => absurd hh (by decide)
    · exact hmax
    · decide
    · rw [List.nil_append, hx]
      exact ha

-- a header whose signed length field is -8
def minusEight : List UINT1 := [0x22, 0, 0, 0, 0xF8, 0xFF, 0xFF, 0xFF]

theorem minusEight_not_withstood : ¬new.Withstands minusEight ∧
    ∃ b, new.m_loopBuffer.write minusEight = some (true, b) ∧
      ∀ handed w', ¬Ends pass { new with m_loopBuffer := b } handed w' := by
  have hcur : new.m_loopBuffer.m_curLen = 0 := rfl
  have hlen : minusEight.length = 8 := rfl
  have hext : LOOP_BUFFER_EXT_SIZE = 102400 := rfl
  have hne : minusEight ≠ [] := List.cons_ne_nil _ _
  obtain ⟨b, hr, hv, hc⟩ := new_holds.valid.write_spec hne (by omega)
  rw [new_holds.contents, List.nil_append] at hc
  have hnever : ∀ handed w', ¬Ends pass { new with m_loopBuffer := b } handed w' := by
    intro handed w'
    exact zero_size_not_ends ⟨hv, hc⟩ hlen.ge (by decide)
  refine ⟨?_, b, hr, hnever⟩
  intro h
  obtain ⟨w', ⟨written, b', hr', hl⟩, -⟩ := h [minusEight] (List.forall_mem_singleton.mpr (by decide)) rfl
  rw [hr] at hr'
  cases hr'
  obtain ⟨handed, hends, -⟩ := hl
  exact hnever handed w' hends

end CClusterRecvWorker

end DCFabric
