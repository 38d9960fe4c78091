import DCFabric.AnsweredCalls
import DCFabric.LoopBuffer

namespace DCFabric

open AnsweredCalls RingView TransitionRuns

namespace CLoopBuffer

inductive Call
  | write (data : List UINT1) (len : data.length < 2 ^ 32)
  | read (len : ℕ) (peek : Bool)

/-- What a call returns, the bytes it has read, and `length` after it. -/
structure Answer where
  ret : Bool
  bytes : List UINT1
  length : ℕ
deriving DecidableEq

def call (b : CLoopBuffer) : Call → Option (Answer × CLoopBuffer)
  | .write data _ => (b.write data).map fun (ret, b) => (⟨ret, [], b.length⟩, b)
  | .read len peek => (b.read len peek).map fun (bytes, b) => (⟨bytes.isSome, bytes.getD [], b.length⟩, b)

/-- A queue of bytes: the ones written last come last. -/
def queue (bytes : List UINT1) : Call → Answer × List UINT1
  | .write data _ => (⟨data ≠ [], [], (bytes ++ data).length⟩, bytes ++ data)
  | .read len peek =>
    if bytes.length < len then (⟨false, [], bytes.length⟩, bytes)
    else
      let left := if peek then bytes else bytes.drop len
      (⟨true, bytes.take len, left.length⟩, left)

/-- A block with room for the bytes is in place, or one of a size below 2^32 takes its place. -/
def HasPlace (b : CLoopBuffer) : Call → Prop
  | .write data _ => data = [] ∨ b.WriteFits data.length
  | .read _ _ => True

def Holds (b : CLoopBuffer) (bytes : List UINT1) : Prop := b.Valid ∧ b.contents = bytes

variable {b b' c : CLoopBuffer} {data fresh cells : List UINT1} {len : ℕ} {ret : Bool}

theorem memcpy_le {dst src dst' : List UINT1} {pos : ℕ} (h : memcpy dst pos src = some dst') :
    pos + src.length ≤ dst.length ∧ dst'.length = dst.length := by
  rw [memcpy] at h
  split_ifs at h with hle
  cases h
  exact ⟨hle, splice_length _ _ _ hle⟩

/-- What is placed into an empty block goes round it once at most. -/
theorem Valid.place_le (hb : b.Valid) (hhead : b.m_head = 0) (h : b.place data = some cells) :
    b.m_curLen + data.length ≤ 2 * b.m_totalLen := by
  have hc := hb.cells
  have ht := hb.total
  have hu := hb.cur
  rw [place, hhead, Nat.zero_add] at h
  split_ifs at h with hfit hfull
  · omega
  · have hle := (memcpy_le h).1
    rw [u4_of_lt (by omega)] at hle
    omega
  · rw [u4_of_lt (by omega)] at h
    simp only at h
    split_ifs at h with hfirst
    · have hle := (memcpy_le h).1
      omega
    · obtain ⟨fst, hfst, hsnd⟩ := Option.bind_eq_some_iff.mp h
      have hle := (memcpy_le hsnd).1
      rw [(memcpy_le hfst).2, List.length_drop] at hle
      omega

theorem makeRoom_m_curLen (h : b.makeRoom len = some c) : c.m_curLen = b.m_curLen := by
  rw [makeRoom] at h
  split_ifs at h with hg
  · obtain ⟨fresh, -, hc⟩ := Option.bind_eq_some_iff.mp h
    cases hc
    rfl
  · cases h
    rfl

/-- A write that leaves as many bytes as were there and as it was given has found room for them. -/
theorem Valid.writeFits (hb : b.Valid) (hd : data ≠ []) (h : b.write data = some (ret, b'))
    (hcur : b'.m_curLen = b.m_curLen + data.length) : b.WriteFits data.length := by
  have he : LOOP_BUFFER_EXT_SIZE = 102400 := rfl
  have ht := hb.total
  rw [write, if_neg (by simpa using hd)] at h
  obtain ⟨c, hroom, h⟩ := Option.bind_eq_some_iff.mp h
  obtain ⟨cells, hplace, h⟩ := Option.bind_eq_some_iff.mp h
  cases h
  rw [makeRoom_m_curLen hroom] at hcur
  have hlt : b.m_curLen + data.length < 2 ^ 32 := hcur ▸ Nat.mod_lt _ (by norm_num)
  by_contra hfits
  rw [WriteFits, not_or] at hfits
  have hmore := moreSpace_eq hlt (by omega)
  have htotal : u4 (b.m_totalLen + b.moreSpace data.length) < LOOP_BUFFER_EXT_SIZE := by
    rw [u4]
    omega
  rw [makeRoom, u4_of_lt hlt, if_pos (by omega)] at hroom
  obtain ⟨fresh, hunroll, hc⟩ := Option.bind_eq_some_iff.mp hroom
  cases hc
  generalize hn : u4 (b.m_totalLen + b.moreSpace data.length) = n at *
  have hlen : (List.replicate n (0 : UINT1)).length = n := List.length_replicate ..
  have hfit : b.m_curLen ≤ n := by
    by_contra hsmall
    rw [hb.unroll_none (by omega)] at hunroll
    cases hunroll
  rw [hb.unroll_eq (by omega)] at hunroll
  cases hunroll
  have hc := hb.contents_length
  have hfresh : (splice (List.replicate n (0 : UINT1)) 0 b.contents).length = n :=
    (splice_length _ _ _ (by omega)).trans hlen
  have hle := Valid.place_le ⟨hfresh, by simp only; omega, hfit, .inl rfl⟩ rfl hplace
  simp only at hle
  omega

theorem Valid.call_write (hb : b.Valid) (hlen : data.length < 2 ^ 32) (hplace : data = [] ∨ b.WriteFits data.length) :
    ∃ b', b.call (.write data hlen) = some ((queue b.contents (.write data hlen)).1, b') ∧
      b'.Holds (b.contents ++ data) := by
  by_cases hd : data = []
  · subst hd
    refine ⟨b, ?_, hb, (List.append_nil _).symm⟩
    rw [call, write_nil, queue, List.append_nil, hb.contents_length]
    rfl
  · obtain ⟨b', hwrite, hb', hcontents⟩ := hb.write_of_fits hd (hplace.resolve_left hd)
    refine ⟨b', ?_, hb', hcontents⟩
    rw [call, hwrite, queue, ← hcontents, hb'.contents_length]
    simp [hd, length]

theorem Valid.call_read (hb : b.Valid) (len : ℕ) (peek : Bool) :
    ∃ b', b.call (.read len peek) = some ((queue b.contents (.read len peek)).1, b') ∧
      b'.Holds (queue b.contents (.read len peek)).2 := by
  by_cases hl : b.m_curLen < len
  · have hshort : b.contents.length < len := by rwa [hb.contents_length]
    rw [call, read_short hl, queue, if_pos hshort, hb.contents_length]
    exact ⟨b, rfl, hb, rfl⟩
  · have hlong : ¬ b.contents.length < len := by rwa [hb.contents_length]
    rw [call, queue, if_neg hlong]
    cases peek with
    | true =>
      rw [hb.peek_eq (Nat.le_of_not_lt hl)]
      simp only [if_true, hb.contents_length]
      exact ⟨b, rfl, hb, rfl⟩
    | false =>
      obtain ⟨b', hread, hb', hcontents⟩ := hb.read_spec (Nat.le_of_not_lt hl)
      rw [hread]
      simp only [Bool.false_eq_true, if_false, ← hcontents, hb'.contents_length]
      exact ⟨b', rfl, hb', rfl⟩

theorem call_simulates : Simulates call queue HasPlace Holds := by
  constructor
  · rintro b bytes (⟨data, hlen⟩ | ⟨len, peek⟩) ⟨hb, rfl⟩ hplace
    · exact hb.call_write hlen hplace
    · exact hb.call_read len peek
  · rintro b bytes (⟨data, hlen⟩ | ⟨len, peek⟩) b' ⟨hb, rfl⟩ hcall
    · by_cases hd : data = []
      · exact .inl hd
      · obtain ⟨⟨ret, c⟩, hwrite, hanswer⟩ := Option.map_eq_some_iff.mp hcall
        obtain ⟨hsame, -⟩ := Prod.mk.inj hanswer
        have hcur : c.m_curLen = (b.contents ++ data).length := congrArg Answer.length hsame
        rw [List.length_append, hb.contents_length] at hcur
        exact .inr (hb.writeFits hd hwrite hcur)
    · trivial

/-- The buffer is a queue of bytes in the runs in which every write finds room, and in no others. -/
theorem fifo_iff (size : UINT4) (calls : List Call) :
    Follows call queue (ofSize size.toNat) [] calls ↔ Along (next call) HasPlace (ofSize size.toNat) calls :=
  call_simulates.follows_iff_along ⟨Valid.ofSize size.toNat_lt, contents_ofSize⟩

/-- After 4 GB less one byte there is no room for another byte. -/
theorem not_along_of_length (hd : data.length = 2 ^ 32 - 1) (hlen : data.length < 2 ^ 32) :
    ¬ Along (next call) HasPlace (ofSize 102400) [.write data hlen, .write [0] (by decide)] := by
  rintro ⟨hfirst, hrest⟩
  obtain ⟨b, hcall, hb, hcontents⟩ := (Valid.ofSize (by decide)).call_write hlen hfirst
  rw [contents_ofSize, List.nil_append] at hcontents
  have hcur : b.m_curLen = 2 ^ 32 - 1 := by rw [← hb.contents_length, hcontents, hd]
  have hnext : next call (ofSize 102400) (.write data hlen) = some b := by
    rw [next, hcall]
    rfl
  have ht := hb.total
  rcases (hrest b hnext).1 with hnil | hfits
  · cases hnil
  · rw [WriteFits, List.length_singleton] at hfits
    omega

theorem not_fifo : ¬∀ (size : UINT4) (calls : List Call), Follows call queue (ofSize size.toNat) [] calls := by
  intro hall
  have hlen : (List.replicate (2 ^ 32 - 1) (0 : UINT1)).length = 2 ^ 32 - 1 := List.length_replicate ..
  have hlt : (List.replicate (2 ^ 32 - 1) (0 : UINT1)).length < 2 ^ 32 := by
    rw [hlen]
    norm_num
  have hfollows := hall 102400 [.write (List.replicate (2 ^ 32 - 1) 0) hlt, .write [0] (by decide)]
  exact not_along_of_length hlen hlt
    ((call_simulates.follows_iff_along ⟨Valid.ofSize (by decide), contents_ofSize⟩).mp hfollows)

end CLoopBuffer

end DCFabric
