import DCFabric.AnsweredCalls
import DCFabric.GenJson
import DCFabric.LoopBuffer
import DCFabric.RecvWorker

namespace DCFabric

open AnsweredCalls COvsdbMgr JsonText Nesting RingView
open CLoopBuffer (bytesAt_eq memcpy_eq)

def BUFFER_EXT_SIZE : ℕ := 1024 * 100

def segment_buffer_size : ℕ := 204800

structure CBuffer where
  m_buffer : List UINT1
  m_size : ℕ
  m_len : ℕ

namespace CBuffer

def ofSize (size : ℕ) : CBuffer := ⟨List.replicate size 0, size, 0⟩

def length (b : CBuffer) : ℕ := b.m_len

/-- The bytes the buffer holds. -/
def data (b : CBuffer) : List UINT1 := b.m_buffer.take b.m_len

def realloc (block : List UINT1) (size : ℕ) : List UINT1 := (block ++ List.replicate size 0).take size

def moreSpace (b : CBuffer) (len : ℕ) : ℕ :=
  let moreSpace := u4Sub (u4 (b.m_len + len)) b.m_size
  if BUFFER_EXT_SIZE < moreSpace then moreSpace else BUFFER_EXT_SIZE

/-- `m_size` and `m_len` stay as they are. -/
def write (b : CBuffer) (data : List UINT1) : Option (ℕ × CBuffer) :=
  if data.length = 0 then some (0, b)
  else do
    let block := if b.m_size < u4 (b.m_len + data.length) then
      realloc b.m_buffer (u4 (b.m_size + b.moreSpace data.length)) else b.m_buffer
    let m_buffer ← memcpy block b.m_len data
    return (data.length, { b with m_buffer })

/-- Returns what it has copied. -/
def read (b : CBuffer) (len : ℕ) : Option (List UINT1 × CBuffer) :=
  if len = 0 then some ([], b)
  else if len < b.m_len then do
    let bytes ← bytesAt b.m_buffer 0 len
    let rest ← bytesAt b.m_buffer len (b.m_len - len)
    let m_buffer ← memcpy b.m_buffer 0 rest
    return (bytes, { b with m_buffer })
  else do
    let bytes ← bytesAt b.m_buffer 0 b.m_len
    return (bytes, { b with m_len := 0 })

inductive Call
  | write (data : List UINT1)
  | read (len : ℕ)

/-- What a call returns, the bytes it has read, and `length` after it. -/
structure Answer where
  ret : ℕ
  bytes : List UINT1
  length : ℕ
deriving DecidableEq

def call (b : CBuffer) : Call → Option (Answer × CBuffer)
  | .write data => (b.write data).map fun (ret, b) => (⟨ret, [], b.length⟩, b)
  | .read len => (b.read len).map fun (bytes, b) => (⟨bytes.length, bytes, b.length⟩, b)

/-- A queue of bytes: the ones written last come last. -/
def queue (bytes : List UINT1) : Call → Answer × List UINT1
  | .write data => (⟨data.length, [], (bytes ++ data).length⟩, bytes ++ data)
  | .read len => (⟨(bytes.take len).length, bytes.take len, (bytes.drop len).length⟩, bytes.drop len)

/-- Nothing is written. -/
def WritesNothing : Call → Prop
  | .write data => data = []
  | .read _ => True

theorem write_length {b b' : CBuffer} {data : List UINT1} {ret : ℕ} (h : b.write data = some (ret, b')) :
    b'.length = b.length := by
  rw [write] at h
  by_cases hnil : data.length = 0
  · rw [if_pos hnil] at h
    cases h
    rfl
  · rw [if_neg hnil] at h
    obtain ⟨m_buffer, -, h⟩ := Option.bind_eq_some_iff.mp h
    cases h
    rfl

theorem call_simulates : Simulates call queue (fun _ => WritesNothing) fun b bytes => b.m_len = 0 ∧ bytes = [] := by
  constructor
  · rintro b bytes (⟨data⟩ | ⟨len⟩) ⟨hlen, rfl⟩ hcall
    · obtain rfl : data = [] := hcall
      exact ⟨b, by simp [call, write, queue, length, hlen], hlen, rfl⟩
    · by_cases hzero : len = 0
      · exact ⟨b, by simp [call, read, queue, length, hlen, hzero], hlen, by simp [queue]⟩
      · have hempty : bytesAt b.m_buffer 0 0 = some [] := by simp [bytesAt]
        exact ⟨{ b with m_len := 0 }, by simp [call, read, queue, length, hlen, hzero, hempty], rfl, by simp [queue]⟩
  · rintro b bytes (⟨data⟩ | ⟨len⟩) b' ⟨hlen, rfl⟩ hcall
    · obtain ⟨⟨ret, c⟩, hwrite, hanswer⟩ := Option.map_eq_some_iff.mp hcall
      obtain ⟨hsame, -⟩ := Prod.mk.inj hanswer
      have hlength : c.length = ([] ++ data).length := congrArg Answer.length hsame
      rw [write_length hwrite, length, hlen] at hlength
      exact List.eq_nil_of_length_eq_zero hlength.symm
    · trivial

end CBuffer

namespace COvsdbRecvWorker

/-- The loop over a chunk: the messages handed to `COvsdbMgr::process`, and what is left of the chunk. -/
def processChunk : ℕ → List UINT1 → List (List UINT1) × List UINT1
  | 0, buffer => ([], buffer)
  | fuel + 1, buffer =>
    if buffer.length = 0 then ([], buffer)
    else
      let jsonLen := (COvsdbMgr.genJson buffer).toNat
      if jsonLen = 0 then ([], buffer)
      else
        let jsonLen := if max_recv_buffer_size - 1 < jsonLen then max_recv_buffer_size - 1 else jsonLen
        let (jsonStrings, left) := processChunk fuel (buffer.drop jsonLen)
        (buffer.take jsonLen :: jsonStrings, left)

/-- The loop over the buffer, whose bytes are scanned from `segData` on and read from the front. -/
def processBuffer : ℕ → CBuffer → List UINT1 → ℕ → ℕ → Option (List (List UINT1) × CBuffer)
  | 0, segBuffer, _, _, _ => some ([], segBuffer)
  | fuel + 1, segBuffer, jsonString, segData, segLen =>
    if segLen = 0 then some ([], segBuffer)
    else do
      let jsonLen := (COvsdbMgr.genJson (← bytesAt segBuffer.m_buffer segData segLen)).toNat
      if jsonLen = 0 then return ([], segBuffer)
      else
        let (bytes, segBuffer) ← segBuffer.read jsonLen
        let jsonString ← memcpy jsonString 0 bytes
        let jsonString ← memcpy jsonString jsonLen [0]
        let (jsonStrings, segBuffer) ← processBuffer fuel segBuffer jsonString (segData + jsonLen) (segLen - jsonLen)
        return (jsonString.take jsonLen :: jsonStrings, segBuffer)

def process (segBuffer : CBuffer) (buffer : List UINT1) : Option (List (List UINT1) × CBuffer) :=
  if segBuffer.m_len = 0 then do
    let (jsonStrings, left) := processChunk buffer.length buffer
    if 0 < left.length then
      let (_, segBuffer) ← segBuffer.write left
      return (jsonStrings, segBuffer)
    else return (jsonStrings, segBuffer)
  else do
    let (_, segBuffer) ← segBuffer.write buffer
    processBuffer segBuffer.length segBuffer (List.replicate max_recv_buffer_size 0) 0 segBuffer.length

/-- The objects of a stream, and the chunks their text is received in. -/
structure Stream where
  objects : List (List UINT1)
  isObject : ∀ o ∈ objects, IsObject o
  chunks : List (List UINT1)
  bounded : ∀ c ∈ chunks, c.length < max_recv_buffer_size
  spells : chunks.flatten = objects.flatten

/-- The part of the first object that has been received. -/
def Incomplete (objects : List (List UINT1)) (rest : List UINT1) : Prop :=
  rest = [] ∨ ∃ o, objects.head? = some o ∧ rest <+: o ∧ rest ≠ o

/-- Each chunk hands on the objects it completes, and leaves the incomplete one in the buffer. -/
def Delivers : CBuffer → List (List UINT1) → List UINT1 → List (List UINT1) → Prop
  | _, _, _, [] => True
  | segBuffer, objects, held, c :: chunks => ∃ n segBuffer' rest, process segBuffer c = some (objects.take n, segBuffer') ∧
    held ++ c = (objects.take n).flatten ++ rest ∧ Incomplete (objects.drop n) rest ∧ segBuffer'.data = rest ∧
    Delivers segBuffer' (objects.drop n) rest chunks

/-- Each chunk is the text of whole objects. -/
def WholeObjects (objects chunks : List (List UINT1)) : Prop :=
  ∃ groups : List (List (List UINT1)), groups.flatten = objects ∧ groups.map List.flatten = chunks

/-- The state the buffer of a socket is in from its creation on. -/
structure Idle (segBuffer : CBuffer) : Prop where
  m_len : segBuffer.m_len = 0
  m_size : segBuffer.m_size = segment_buffer_size
  block : segment_buffer_size ≤ segBuffer.m_buffer.length

variable {segBuffer : CBuffer} {objects chunks : List (List UINT1)} {o c buffer held : List UINT1} {f : ℕ}

theorem Idle.new : Idle (.ofSize segment_buffer_size) := ⟨rfl, rfl, (List.length_replicate ..).ge⟩

theorem Idle.data (h : Idle segBuffer) : segBuffer.data = [] := by
  rw [CBuffer.data, h.m_len, List.take_zero]

theorem processChunk_length (fuel : ℕ) (buffer : List UINT1) :
    (processChunk fuel buffer).2.length ≤ buffer.length := by
  induction fuel generalizing buffer with
  | zero => exact le_rfl
  | succ fuel ih =>
    rw [processChunk]
    split_ifs
    · exact le_rfl
    · simp only
      split_ifs
      · exact le_rfl
      all_goals
        apply (ih _).trans
        rw [List.length_drop]
        exact Nat.sub_le _ _

theorem Idle.write (h : Idle segBuffer) (hlen : c.length < max_recv_buffer_size) (hne : 0 < c.length) :
    ∃ segBuffer', segBuffer.write c = some (c.length, segBuffer') ∧ Idle segBuffer' := by
  have hmax : max_recv_buffer_size = 204800 := rfl
  have hseg : segment_buffer_size = 204800 := rfl
  have hblock := h.block
  have hfits : ¬ segBuffer.m_size < u4 (0 + c.length) := by
    rw [u4_of_lt (by omega), h.m_size]
    omega
  have hsplice := splice_length segBuffer.m_buffer 0 c (by omega)
  rw [CBuffer.write, if_neg (by omega), h.m_len, if_neg hfits]
  simp only [memcpy_eq (show 0 + c.length ≤ segBuffer.m_buffer.length by omega)]
  exact ⟨_, rfl, rfl, h.m_size, by simp only; omega⟩

theorem Idle.process (h : Idle segBuffer) (hlen : c.length < max_recv_buffer_size) :
    ∃ segBuffer', process segBuffer c = some ((processChunk c.length c).1, segBuffer') ∧ Idle segBuffer' := by
  have hle := processChunk_length c.length c
  rw [COvsdbRecvWorker.process, if_pos h.m_len]
  simp only
  split_ifs with hleft
  · obtain ⟨segBuffer', hwrite, hidle⟩ := h.write (hle.trans_lt hlen) hleft
    rw [hwrite]
    exact ⟨segBuffer', rfl, hidle⟩
  · exact ⟨segBuffer, rfl, h⟩

theorem length_pos_of_isObject (h : IsObject o) : 0 < o.length := by
  obtain ⟨l, rfl⟩ := h.between
  exact Nat.succ_pos _

theorem max_lt : max_recv_buffer_size < 2 ^ 32 := by decide

/-- A chunk of whole objects with paired braces is taken apart into them. -/
theorem processChunk_objects (ho : ∀ o ∈ objects, IsObject o) (hclosed : ∀ o ∈ objects, Closed brace o)
    (hlen : objects.flatten.length < max_recv_buffer_size) (hfuel : objects.flatten.length ≤ f) :
    processChunk f objects.flatten = (objects, []) := by
  have hmax := max_lt
  induction objects generalizing f with
  | nil =>
    cases f with
    | zero => rfl
    | succ f => rfl
  | cons o objects ih =>
    obtain ⟨hone, ho⟩ := List.forall_mem_cons.mp ho
    obtain ⟨hcone, hclosed⟩ := List.forall_mem_cons.mp hclosed
    have hpos := length_pos_of_isObject hone
    rw [List.flatten_cons, List.length_append] at hlen hfuel
    obtain ⟨f, rfl⟩ := Nat.exists_eq_add_of_le' (hpos.trans_le (Nat.le_of_add_right_le hfuel))
    have hscan := ((scans_iff_closed hone (by omega)).mpr hcone).1 objects.flatten
      (by rw [List.length_append]; omega)
    have hlt : o.length < 2 ^ 32 := by omega
    have hend : (UInt32.ofNat o.length).toNat = o.length := UInt32.toNat_ofNat_of_lt' hlt
    rw [processChunk, List.flatten_cons, if_neg (by rw [List.length_append]; omega), hscan, hend]
    simp only
    rw [if_neg (by omega), if_neg (by omega), List.drop_left, List.take_left, ih ho hclosed (by omega) (by omega)]

theorem closed_of_processChunk (ho : ∀ o ∈ objects, IsObject o) (hlen : objects.flatten.length < max_recv_buffer_size)
    (h : (processChunk f objects.flatten).1 = objects) : ∀ o ∈ objects, Closed brace o := by
  have hmax := max_lt
  induction objects generalizing f with
  | nil => exact List.forall_mem_nil _
  | cons o objects ih =>
    obtain ⟨hone, ho⟩ := List.forall_mem_cons.mp ho
    rw [List.flatten_cons, List.length_append] at hlen
    rw [List.flatten_cons] at h
    cases f with
    | zero => cases h
    | succ f =>
      have hle := genJson_le (o ++ objects.flatten) (by rw [List.length_append]; omega)
      rw [List.length_append] at hle
      generalize hn : (genJson (o ++ objects.flatten)).toNat = n at hle
      have hpos := length_pos_of_isObject hone
      rw [processChunk, if_neg (by rw [List.length_append]; omega)] at h
      simp only [hn] at h
      by_cases hzero : n = 0
      · rw [if_pos hzero] at h
        cases h
      · rw [if_neg hzero, if_neg (show ¬ max_recv_buffer_size - 1 < n by omega)] at h
        obtain ⟨hhead, htail⟩ := List.cons.inj h
        have hsize : n = o.length := by
          have := congrArg List.length hhead
          rw [List.length_take, List.length_append] at this
          omega
        rw [hsize, List.drop_left] at htail
        refine List.forall_mem_cons.mpr ⟨?_, ih ho (by omega) htail⟩
        obtain ⟨l, rfl⟩ := hone.between
        rw [length_between] at hsize hlen
        apply closed_of_genJson (s := objects.flatten) (by omega)
        rw [List.cons_append, List.append_assoc, List.singleton_append] at hn
        rw [← hsize, ← hn, UInt32.ofNat_toNat]

theorem eq_nil_of_flatten (ho : ∀ o ∈ objects, IsObject o) (h : objects.flatten = []) : objects = [] := by
  cases objects with
  | nil => rfl
  | cons o objects =>
    have hpos := length_pos_of_isObject (ho o List.mem_cons_self)
    rw [List.flatten_cons, List.append_eq_nil_iff] at h
    rw [h.1] at hpos
    exact absurd hpos (lt_irrefl 0)

theorem Idle.delivers_iff (h : Idle segBuffer) (ho : ∀ o ∈ objects, IsObject o)
    (hlen : ∀ c ∈ chunks, c.length < max_recv_buffer_size) (hspells : chunks.flatten = objects.flatten) :
    Delivers segBuffer objects [] chunks ↔ WholeObjects objects chunks ∧ ∀ o ∈ objects, Closed brace o := by
  induction chunks generalizing segBuffer objects with
  | nil =>
    obtain rfl := eq_nil_of_flatten ho hspells.symm
    exact iff_of_true trivial ⟨⟨[], rfl, rfl⟩, List.forall_mem_nil _⟩
  | cons c chunks ih =>
    obtain ⟨hone, hrestlen⟩ := List.forall_mem_cons.mp hlen
    obtain ⟨segBuffer', hprocess, hidle⟩ := h.process hone
    rw [List.flatten_cons] at hspells
    constructor
    · rintro ⟨n, t, rest, hsame, hheld, -, hdata, hrest⟩
      obtain ⟨hmsgs, rfl⟩ := Prod.mk.inj (Option.some.inj (hprocess.symm.trans hsame))
      -- the buffer stays empty, so the chunk has to end with an object
      obtain rfl : [] = rest := hidle.data.symm.trans hdata
      rw [List.nil_append, List.append_nil] at hheld
      have htake : ∀ o ∈ objects.take n, IsObject o := fun o hmem => ho o (List.mem_of_mem_take hmem)
      have hdrop : ∀ o ∈ objects.drop n, IsObject o := fun o hmem => ho o (List.mem_of_mem_drop hmem)
      have hclosed := closed_of_processChunk (f := c.length) htake (by rwa [← hheld]) (by rw [← hheld, hmsgs])
      have hleft : chunks.flatten = (objects.drop n).flatten := by
        rw [← List.take_append_drop n objects, List.flatten_append, ← hheld] at hspells
        simpa using hspells
      obtain ⟨⟨groups, hgroups, hmap⟩, hclosed'⟩ := (ih hidle hdrop hrestlen hleft).mp hrest
      refine ⟨⟨objects.take n :: groups, ?_, ?_⟩, ?_⟩
      · rw [List.flatten_cons, hgroups, List.take_append_drop]
      · rw [List.map_cons, hmap, hheld]
      · rw [← List.take_append_drop n objects]
        exact List.forall_mem_append.mpr ⟨hclosed, hclosed'⟩
    · rintro ⟨⟨groups, hgroups, hmap⟩, hclosed⟩
      cases groups with
      | nil => cases hmap
      | cons group groups =>
        obtain ⟨rfl, rfl⟩ := List.cons.inj hmap
        obtain rfl : group ++ groups.flatten = objects := hgroups
        obtain ⟨hgroup, ho⟩ := List.forall_mem_append.mp ho
        obtain ⟨hcgroup, hclosed⟩ := List.forall_mem_append.mp hclosed
        rw [processChunk_objects hgroup hcgroup hone le_rfl] at hprocess
        rw [List.flatten_append] at hspells
        have hleft := List.append_cancel_left hspells
        refine ⟨group.length, segBuffer', [], ?_, ?_, .inl rfl, hidle.data, ?_⟩
        · rw [List.take_left, hprocess]
        · rw [List.take_left, List.nil_append, List.append_nil]
        · rw [List.drop_left]
          exact (ih hidle ho hrestlen hleft).mpr ⟨⟨groups, rfl, rfl⟩, hclosed⟩

/-- `{}` in two chunks -/
def cutObject : Stream where
  objects := [[0x7B, 0x7D]]
  isObject := List.forall_mem_singleton.mpr (.emptyObject (List.forall_mem_nil _))
  chunks := [[0x7B], [0x7D]]
  bounded := by decide
  spells := rfl

end COvsdbRecvWorker

end DCFabric
