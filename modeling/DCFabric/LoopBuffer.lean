import DCFabric.BncTypes
import DCFabric.RingView

namespace DCFabric

open RingView

def LOOP_BUFFER_EXT_SIZE : ℕ := 1024 * 100

def u4 (n : ℕ) : ℕ := n % 2 ^ 32

def u4Sub (a b : ℕ) : ℕ := (a + (2 ^ 32 - b)) % 2 ^ 32

theorem u4_of_lt {n : ℕ} (hn : n < 2 ^ 32) : u4 n = n := Nat.mod_eq_of_lt hn

theorem u4Sub_of_le {a b : ℕ} (ha : a < 2 ^ 32) (hb : b ≤ a) : u4Sub a b = a - b := by
  have hs : a + (2 ^ 32 - b) = a - b + 2 ^ 32 := by omega
  rw [u4Sub, hs, Nat.add_mod_right, Nat.mod_eq_of_lt (by omega)]

-- `none` is an access outside the block that the pointer belongs to
def bytesAt (src : List UINT1) (pos len : ℕ) : Option (List UINT1) :=
  if pos + len ≤ src.length then some ((src.drop pos).take len) else none

def memcpy (dst : List UINT1) (pos : ℕ) (src : List UINT1) : Option (List UINT1) :=
  if pos + src.length ≤ dst.length then some (splice dst pos src) else none

structure CLoopBuffer where
  m_buffer : List UINT1
  m_totalLen : ℕ
  m_curLen : ℕ
  m_head : ℕ

namespace CLoopBuffer

def ofSize (size : ℕ) : CLoopBuffer :=
  { m_buffer := List.replicate size 0, m_totalLen := size, m_curLen := 0, m_head := 0 }

def length (b : CLoopBuffer) : ℕ := b.m_curLen

def reset (b : CLoopBuffer) : CLoopBuffer := { b with m_curLen := 0, m_head := 0 }

def moreSpace (b : CLoopBuffer) (len : ℕ) : ℕ :=
  let more := u4Sub (u4 (b.m_curLen + len)) b.m_totalLen
  if LOOP_BUFFER_EXT_SIZE < more then more else LOOP_BUFFER_EXT_SIZE

def unroll (b : CLoopBuffer) (fresh : List UINT1) : Option (List UINT1) :=
  if b.m_totalLen ≤ b.m_head + b.m_curLen then do
    let secondLen := u4 (b.m_head + b.m_curLen - b.m_totalLen)
    let first ← bytesAt b.m_buffer b.m_head (u4Sub b.m_curLen secondLen)
    let fresh ← memcpy fresh 0 first
    let second ← bytesAt b.m_buffer 0 secondLen
    memcpy fresh (b.m_curLen - secondLen) second
  else do
    let all ← bytesAt b.m_buffer b.m_head b.m_curLen
    memcpy fresh 0 all

def grow (b : CLoopBuffer) (len : ℕ) : Option CLoopBuffer := do
  let total := u4 (b.m_totalLen + b.moreSpace len)
  let fresh ← b.unroll (List.replicate total 0)
  return { b with m_buffer := fresh, m_totalLen := total, m_head := 0 }

def place (b : CLoopBuffer) (data : List UINT1) : Option (List UINT1) :=
  if b.m_head + b.m_curLen + data.length ≤ b.m_totalLen then
    memcpy b.m_buffer (b.m_head + b.m_curLen) data
  else if b.m_totalLen ≤ b.m_head + b.m_curLen then
    memcpy b.m_buffer (u4 (b.m_head + b.m_curLen - b.m_totalLen)) data
  else do
    let firstLen := u4 (b.m_totalLen - (b.m_head + b.m_curLen))
    if data.length ≤ firstLen then
      memcpy b.m_buffer (b.m_head + b.m_curLen) data
    else
      let fst ← memcpy b.m_buffer (b.m_head + b.m_curLen) (data.take firstLen)
      memcpy fst 0 (data.drop firstLen)

def makeRoom (b : CLoopBuffer) (len : ℕ) : Option CLoopBuffer :=
  if b.m_totalLen < u4 (b.m_curLen + len) then b.grow len else some b

def write (b : CLoopBuffer) (data : List UINT1) : Option (Bool × CLoopBuffer) :=
  if data.length = 0 then
    some (false, b)
  else do
    let b ← b.makeRoom data.length
    let m_buffer ← b.place data
    return (true, { b with m_buffer := m_buffer, m_curLen := u4 (b.m_curLen + data.length) })

def readAt (b : CLoopBuffer) (len : ℕ) : Option (List UINT1 × ℕ) :=
  if b.m_totalLen < b.m_head + b.m_curLen then do
    let secondLen := u4 (b.m_head + b.m_curLen - b.m_totalLen)
    let firstLen := u4Sub b.m_curLen secondLen
    if firstLen ≤ len then
      let first ← bytesAt b.m_buffer b.m_head firstLen
      let second ← bytesAt b.m_buffer 0 (len - firstLen)
      return (first ++ second, len - firstLen)
    else
      let bytes ← bytesAt b.m_buffer b.m_head len
      return (bytes, b.m_head + len)
  else do
    let bytes ← bytesAt b.m_buffer b.m_head len
    return (bytes, if b.m_head + len = b.m_totalLen then 0 else b.m_head + len)

def read (b : CLoopBuffer) (len : ℕ) (peek : Bool) : Option (Option (List UINT1) × CLoopBuffer) :=
  if b.m_curLen < len then
    some (none, b)
  else do
    let (bytes, head) ← b.readAt len
    return (some bytes, if peek then b else { b with m_head := head, m_curLen := b.m_curLen - len })

structure Valid (b : CLoopBuffer) : Prop where
  cells : b.m_buffer.length = b.m_totalLen
  total : b.m_totalLen < 2 ^ 32
  cur : b.m_curLen ≤ b.m_totalLen
  head : b.m_head = 0 ∨ b.m_head < b.m_totalLen

def contents (b : CLoopBuffer) : List UINT1 := window b.m_buffer b.m_head b.m_curLen

variable {b : CLoopBuffer} {data : List UINT1} {len : ℕ}

theorem bytesAt_eq {src : List UINT1} {pos len : ℕ} (hp : pos + len ≤ src.length) :
    bytesAt src pos len = some ((src.drop pos).take len) := if_pos hp

theorem memcpy_eq {dst src : List UINT1} {pos : ℕ} (hp : pos + src.length ≤ dst.length) :
    memcpy dst pos src = some (splice dst pos src) := if_pos hp

theorem Valid.ofSize {size : ℕ} (hs : size < 2 ^ 32) : (ofSize size).Valid :=
  ⟨List.length_replicate .., hs, Nat.zero_le _, Or.inl rfl⟩

@[simp] theorem contents_ofSize {size : ℕ} : (ofSize size).contents = [] := rfl

theorem Valid.reset (hb : b.Valid) : b.reset.Valid := ⟨hb.cells, hb.total, Nat.zero_le _, Or.inl rfl⟩

@[simp] theorem contents_reset : b.reset.contents = [] := rfl

theorem Valid.contents_length (hb : b.Valid) : b.contents.length = b.m_curLen := by
  apply window_length
  rw [hb.cells]
  exact hb.cur

theorem Valid.head_le (hb : b.Valid) : b.m_head ≤ b.m_buffer.length := by
  have hc := hb.cells
  have hh := hb.head
  omega

theorem Valid.contents_wrapped (hb : b.Valid) (hw : b.m_totalLen ≤ b.m_head + b.m_curLen) :
    b.contents = b.m_buffer.drop b.m_head ++ b.m_buffer.take (b.m_head + b.m_curLen - b.m_totalLen) := by
  have hc := hb.cells
  have hu := hb.cur
  rw [contents, window_wrapped hb.head_le (by omega) (by omega), hc]

theorem Valid.contents_straight (hb : b.Valid) (hw : b.m_head + b.m_curLen ≤ b.m_totalLen) :
    b.contents = (b.m_buffer.drop b.m_head).take b.m_curLen := by
  have hc := hb.cells
  exact window_straight (by omega)

theorem Valid.unroll_eq (hb : b.Valid) {fresh : List UINT1} (hf : b.m_curLen ≤ fresh.length) :
    b.unroll fresh = some (splice fresh 0 b.contents) := by
  have hc := hb.cells
  have ht := hb.total
  have hu := hb.cur
  have hh := hb.head
  rw [unroll]
  split
  · next hw =>
    have h2 : u4 (b.m_head + b.m_curLen - b.m_totalLen) = b.m_head + b.m_curLen - b.m_totalLen :=
      u4_of_lt (by omega)
    have h1 : u4Sub b.m_curLen (b.m_head + b.m_curLen - b.m_totalLen) = b.m_totalLen - b.m_head := by
      rw [u4Sub_of_le (by omega) (by omega)]
      omega
    have hd : (b.m_buffer.drop b.m_head).length = b.m_totalLen - b.m_head := by
      rw [List.length_drop, hc]
    have hl : b.m_curLen - (b.m_head + b.m_curLen - b.m_totalLen) =
        0 + (b.m_buffer.drop b.m_head).length := by omega
    simp only [h2, h1]
    rw [bytesAt_eq (by omega), Option.bind_eq_bind, Option.bind_some, List.take_of_length_le (by omega),
      memcpy_eq (by omega), Option.bind_some, bytesAt_eq (by omega), Option.bind_some, List.drop_zero, hl, memcpy_eq,
        splice_append (by omega), ← hb.contents_wrapped hw]
    rw [splice_length _ _ _ (by omega), List.length_take]
    omega
  · next hw =>
    have hs := hb.contents_straight (by omega)
    have hl := hb.contents_length
    rw [bytesAt_eq (by omega), Option.bind_eq_bind, Option.bind_some, ← hs, memcpy_eq (by omega)]

/-- The bytes do not fit into a smaller block. -/
theorem Valid.unroll_none (hb : b.Valid) {fresh : List UINT1} (hf : fresh.length < b.m_curLen) :
    b.unroll fresh = none := by
  have hc := hb.cells
  have ht := hb.total
  have hu := hb.cur
  have hh := hb.head
  rw [unroll]
  split
  · next hw =>
    have h2 : u4 (b.m_head + b.m_curLen - b.m_totalLen) = b.m_head + b.m_curLen - b.m_totalLen := u4_of_lt (by omega)
    have h1 : u4Sub b.m_curLen (b.m_head + b.m_curLen - b.m_totalLen) = b.m_totalLen - b.m_head := by
      rw [u4Sub_of_le (by omega) (by omega)]
      omega
    have hd : ((b.m_buffer.drop b.m_head).take (b.m_totalLen - b.m_head)).length = b.m_totalLen - b.m_head := by
      rw [List.length_take, List.length_drop]
      omega
    simp only [h2, h1]
    rw [bytesAt_eq (by omega), Option.bind_eq_bind, Option.bind_some]
    by_cases hfirst : b.m_totalLen - b.m_head ≤ fresh.length
    · rw [memcpy_eq (by omega), Option.bind_some, bytesAt_eq (by omega), Option.bind_some, memcpy]
      refine if_neg ?_
      rw [splice_length _ _ _ (by omega), List.length_take, List.length_drop]
      omega
    · rw [memcpy, if_neg (by omega), Option.bind_none]
  · next hw =>
    rw [bytesAt_eq (by omega), Option.bind_eq_bind, Option.bind_some, memcpy]
    refine if_neg ?_
    rw [List.length_take, List.length_drop]
    omega

theorem moreSpace_eq (hl : b.m_curLen + len < 2 ^ 32) (hg : b.m_totalLen < b.m_curLen + len) :
    b.moreSpace len = max LOOP_BUFFER_EXT_SIZE (b.m_curLen + len - b.m_totalLen) := by
  rw [moreSpace, u4_of_lt hl, u4Sub_of_le hl (by omega)]
  split <;> omega

theorem ext_size_pos : 0 < LOOP_BUFFER_EXT_SIZE := by decide

/-- The bytes fit into the block, or into the one that `write` takes in its place. -/
def WriteFits (b : CLoopBuffer) (len : ℕ) : Prop :=
  b.m_curLen + len ≤ b.m_totalLen ∨
    b.m_totalLen + max LOOP_BUFFER_EXT_SIZE (b.m_curLen + len - b.m_totalLen) < 2 ^ 32

theorem writeFits_of_le (hl : b.m_curLen + len + LOOP_BUFFER_EXT_SIZE ≤ 2 ^ 32) : b.WriteFits len := by
  have he := ext_size_pos
  rw [WriteFits]
  omega

theorem Valid.grow_spec (hb : b.Valid) (hl : b.WriteFits len) (hg : b.m_totalLen < b.m_curLen + len) :
    ∃ b', b.grow len = some b' ∧ b'.Valid ∧ b'.contents = b.contents ∧ b'.m_curLen = b.m_curLen ∧
      b.m_curLen + len ≤ b'.m_totalLen := by
  have he := ext_size_pos
  have hu := hb.cur
  have hl := hl.resolve_left (by omega)
  have hs := moreSpace_eq (by omega) hg
  have hm : b.m_totalLen + b.moreSpace len < 2 ^ 32 := by omega
  have hr := List.length_replicate (n := b.m_totalLen + b.moreSpace len) (a := (0 : UINT1))
  have hc := hb.contents_length
  have hf := splice_length (List.replicate (b.m_totalLen + b.moreSpace len) (0 : UINT1)) 0 b.contents (by omega)
  have hw := window_splice_straight (List.replicate (b.m_totalLen + b.moreSpace len) (0 : UINT1)) 0 0 b.contents
    (by omega)
  rw [Nat.zero_add, Nat.zero_add, hc] at hw
  rw [grow, u4_of_lt hm, hb.unroll_eq (by omega)]
  refine ⟨_, rfl, ⟨hf.trans hr, hm, ?_, Or.inl rfl⟩, hw, rfl, ?_⟩
  · show b.m_curLen ≤ b.m_totalLen + b.moreSpace len
    omega
  · show b.m_curLen + len ≤ b.m_totalLen + b.moreSpace len
    omega

theorem Valid.makeRoom_spec (hb : b.Valid) (hl : b.WriteFits len) :
    ∃ b', b.makeRoom len = some b' ∧ b'.Valid ∧ b'.contents = b.contents ∧ b'.m_curLen = b.m_curLen ∧
      b.m_curLen + len ≤ b'.m_totalLen := by
  have ht := hb.total
  have hlt : b.m_curLen + len < 2 ^ 32 := by
    rcases hl with hl | hl <;> omega
  rw [makeRoom, u4_of_lt hlt]
  split
  · next hg => exact hb.grow_spec hl hg
  · next hg => exact ⟨b, rfl, hb, rfl, rfl, by omega⟩

theorem Valid.place_spec (hb : b.Valid) (hl : b.m_curLen + data.length ≤ b.m_totalLen) :
    ∃ cells, b.place data = some cells ∧ cells.length = b.m_totalLen ∧
      window cells b.m_head (b.m_curLen + data.length) = b.contents ++ data := by
  have hc := hb.cells
  have ht := hb.total
  have hh := hb.head
  rw [place]
  split
  · exact ⟨_, memcpy_eq (by omega), (splice_length _ _ _ (by omega)).trans hc,
      window_splice_straight _ _ _ _ (by omega)⟩
  · split
    · next h1 h2 =>
      rw [u4_of_lt (by omega), ← hc]
      exact ⟨_, memcpy_eq (by omega), splice_length _ _ _ (by omega),
        window_splice_wrapped _ _ _ _ hb.head_le (by omega) (by omega)⟩
    · next h1 h2 =>
      rw [u4_of_lt (by omega)]
      generalize hk : b.m_totalLen - (b.m_head + b.m_curLen) = k
      have hx : (data.take k).length = k := by rw [List.length_take]; omega
      have hy : (data.drop k).length = data.length - k := List.length_drop
      have h3 := splice_length b.m_buffer (b.m_head + b.m_curLen) (data.take k) (by omega)
      have hw := window_splice_split b.m_buffer b.m_head b.m_curLen (data.take k) (data.drop k) hb.head_le (by omega)
        (by omega)
      rw [List.take_append_drop] at hw
      rw [if_neg (by omega), memcpy_eq (by omega), Option.bind_eq_bind, Option.bind_some]
      exact ⟨_, memcpy_eq (by omega), by rw [splice_length _ _ _ (by omega), h3, hc], hw⟩

/-- A write keeps what the buffer holds, also when the buffer grows for it. -/
theorem Valid.write_of_fits (hb : b.Valid) (hd : data ≠ []) (hl : b.WriteFits data.length) :
    ∃ b', b.write data = some (true, b') ∧ b'.Valid ∧ b'.contents = b.contents ++ data := by
  obtain ⟨c, hc, hv, hsame, hcur, hfit⟩ := hb.makeRoom_spec hl
  rw [← hcur] at hfit
  have ht := hv.total
  have hu : u4 (c.m_curLen + data.length) = c.m_curLen + data.length := u4_of_lt (by omega)
  obtain ⟨cells, hp, hlen, hw⟩ := hv.place_spec hfit
  rw [write, if_neg (by simpa using hd), hc, Option.bind_eq_bind, Option.bind_some, hp, hu, ← hsame]
  exact ⟨_, rfl, ⟨hlen, hv.total, hfit, hv.head⟩, hw⟩

theorem Valid.write_spec (hb : b.Valid) (hd : data ≠ [])
    (hl : b.m_curLen + data.length + LOOP_BUFFER_EXT_SIZE ≤ 2 ^ 32) :
    ∃ b', b.write data = some (true, b') ∧ b'.Valid ∧ b'.contents = b.contents ++ data :=
  hb.write_of_fits hd (writeFits_of_le hl)

theorem write_nil : b.write [] = some (false, b) := rfl

theorem write_total (hd : data ≠ []) (hl : b.m_curLen + data.length + LOOP_BUFFER_EXT_SIZE ≤ 2 ^ 32)
    {b' : CLoopBuffer} (hw : b.write data = some (true, b')) :
    b'.m_totalLen = if b.m_curLen + data.length ≤ b.m_totalLen then b.m_totalLen else
      b.m_totalLen + max LOOP_BUFFER_EXT_SIZE (b.m_curLen + data.length - b.m_totalLen) := by
  have he := ext_size_pos
  rw [write, if_neg (by simpa using hd)] at hw
  obtain ⟨c, hc, hw⟩ := Option.bind_eq_some_iff.mp hw
  obtain ⟨cells, -, hw⟩ := Option.bind_eq_some_iff.mp hw
  cases hw
  rw [makeRoom, u4_of_lt (by omega)] at hc
  split at hc
  · next hg =>
    have hm := moreSpace_eq (by omega) hg
    rw [grow] at hc
    obtain ⟨fresh, -, hc⟩ := Option.bind_eq_some_iff.mp hc
    cases hc
    rw [if_neg (by omega), ← hm]
    exact u4_of_lt (by omega)
  · next hg =>
    cases hc
    rw [if_pos (by omega)]

theorem Valid.take_wrapped (hb : b.Valid) (hl : len ≤ b.m_curLen) (hk : b.m_totalLen - b.m_head ≤ len)
    (hw : b.m_totalLen < b.m_head + b.m_curLen) :
    b.contents.take len = b.m_buffer.drop b.m_head ++ b.m_buffer.take (len - (b.m_totalLen - b.m_head)) := by
  have hd : (b.m_buffer.drop b.m_head).length = b.m_totalLen - b.m_head := by rw [List.length_drop, hb.cells]
  rw [hb.contents_wrapped (by omega), List.take_append, List.take_of_length_le (by omega), hd, List.take_take,
    min_eq_left (by omega)]

theorem Valid.readAt_spec (hb : b.Valid) (hl : len ≤ b.m_curLen) :
    ∃ head, b.readAt len = some (b.contents.take len, head) ∧ (head = 0 ∨ head < b.m_totalLen) ∧
      window b.m_buffer head (b.m_curLen - len) = b.contents.drop len := by
  have hc := hb.cells
  have ht := hb.total
  have hu := hb.cur
  have hh := hb.head
  have hdrop : b.contents.drop len = window b.m_buffer (b.m_head + len) (b.m_curLen - len) :=
    window_drop hl (by omega)
  rw [hdrop, readAt]
  split
  · next hw =>
    have h2 : u4 (b.m_head + b.m_curLen - b.m_totalLen) = b.m_head + b.m_curLen - b.m_totalLen :=
      u4_of_lt (by omega)
    have h1 : u4Sub b.m_curLen (b.m_head + b.m_curLen - b.m_totalLen) = b.m_totalLen - b.m_head := by
      rw [u4Sub_of_le (by omega) (by omega)]
      omega
    have hd : (b.m_buffer.drop b.m_head).length = b.m_totalLen - b.m_head := by rw [List.length_drop, hc]
    simp only [h2, h1]
    split
    · next hk =>
      rw [bytesAt_eq (by omega), Option.bind_eq_bind, Option.bind_some, bytesAt_eq (by omega), Option.bind_some,
        List.take_of_length_le hd.le, List.drop_zero, hb.take_wrapped hl hk hw]
      refine ⟨_, rfl, by omega, ?_⟩
      rw [window_turn (h := b.m_head + len) (by omega), hc]
      congr 1
      omega
    · next hk =>
      rw [bytesAt_eq (by omega), Option.bind_eq_bind, Option.bind_some, hb.contents_wrapped (by omega),
        List.take_append_of_le_length (by omega)]
      exact ⟨_, rfl, by omega, rfl⟩
  · next hw =>
    rw [bytesAt_eq (by omega), Option.bind_eq_bind, Option.bind_some, hb.contents_straight (by omega), List.take_take,
      min_eq_left hl]
    refine ⟨_, rfl, ?_, ?_⟩
    · split <;> omega
    · split
      · next he =>
        rw [window_turn (h := b.m_head + len) (by omega), hc, he, Nat.sub_self]
      · rfl

theorem Valid.read_spec (hb : b.Valid) (hl : len ≤ b.m_curLen) :
    ∃ b', b.read len false = some (some (b.contents.take len), b') ∧ b'.Valid ∧
      b'.contents = b.contents.drop len := by
  obtain ⟨head, hr, hh, hw⟩ := hb.readAt_spec hl
  have hu := hb.cur
  rw [read, if_neg (by omega), hr, Option.bind_eq_bind, Option.bind_some]
  exact ⟨_, rfl, ⟨hb.cells, hb.total, (Nat.sub_le _ _).trans hu, hh⟩, hw⟩

theorem Valid.peek_eq (hb : b.Valid) (hl : len ≤ b.m_curLen) :
    b.read len true = some (some (b.contents.take len), b) := by
  obtain ⟨head, hr, -, -⟩ := hb.readAt_spec hl
  rw [read, if_neg (by omega), hr]
  rfl

/-- A buffer that is full 100 KB below 4 GB wraps the size of its next block, which then has no room for its bytes. -/
theorem Valid.write_wraps (hb : b.Valid) (hfull : b.m_curLen = b.m_totalLen)
    (htotal : b.m_totalLen + LOOP_BUFFER_EXT_SIZE = 2 ^ 32) (x : UINT1) : b.write [x] = none := by
  have he : LOOP_BUFFER_EXT_SIZE = 102400 := rfl
  have hc := hb.cells
  have hh := hb.head
  have hmore : b.moreSpace 1 = LOOP_BUFFER_EXT_SIZE := by
    rw [moreSpace_eq (by omega) (by omega)]
    omega
  have hzero : u4 (b.m_totalLen + b.moreSpace 1) = 0 := by
    rw [hmore, htotal]
    rfl
  have hsecond : u4 (b.m_head + b.m_curLen - b.m_totalLen) = b.m_head := by
    rw [u4_of_lt (by omega)]
    omega
  have hfirst : ((b.m_buffer.drop b.m_head).take (u4Sub b.m_curLen b.m_head)).length = b.m_curLen - b.m_head := by
    rw [u4Sub_of_le (by omega) (by omega), List.length_take, List.length_drop]
    omega
  have hunroll : b.unroll (List.replicate 0 0) = none := by
    rw [unroll, if_pos (by omega)]
    simp only [hsecond]
    rw [bytesAt_eq (by rw [u4Sub_of_le (by omega) (by omega)]; omega), Option.bind_eq_bind, Option.bind_some, memcpy,
      if_neg (by rw [hfirst, List.length_replicate]; omega)]
    rfl
  have hgrow : b.makeRoom 1 = none := by
    rw [makeRoom, u4_of_lt (by omega), if_pos (by omega), grow, hzero, hunroll]
    rfl
  rw [write, if_neg (by simp), List.length_singleton, hgrow]
  rfl

theorem read_total {peek : Bool} {bytes : Option (List UINT1)} {b' : CLoopBuffer}
    (hr : b.read len peek = some (bytes, b')) :
    b'.m_totalLen = b.m_totalLen := by
  rw [read] at hr
  split at hr
  · cases hr
    rfl
  · obtain ⟨⟨bytes', head⟩, -, hr⟩ := Option.bind_eq_some_iff.mp hr
    cases hr
    split <;> rfl

theorem read_short {peek : Bool} (hl : b.m_curLen < len) : b.read len peek = some (none, b) := if_pos hl

end CLoopBuffer

end DCFabric
