import DCFabric.LoopBuffer
import DCFabric.RecvWorker
import DCFabric.MessageFraming

namespace DCFabric

open MessageFraming

structure OfpHeader where
  version : UINT1
  type : UINT1
  length : ℕ

namespace OfpHeader

def size : ℕ := 8

def ofBytes (bytes : List UINT1) : OfpHeader :=
  { version := bytes.getD 0 0
    type := bytes.getD 1 0
    length := (bytes.getD 2 0).toNat * 256 + (bytes.getD 3 0).toNat }

theorem ofBytes_append (xs ys : List UINT1) (hx : size ≤ xs.length) : ofBytes (xs ++ ys) = ofBytes xs := by
  have h8 : 8 ≤ xs.length := hx
  rw [ofBytes, ofBytes, List.getD_append _ _ _ _ (by omega), List.getD_append _ _ _ _ (by omega),
    List.getD_append _ _ _ _ (by omega), List.getD_append _ _ _ _ (by omega)]

theorem ofBytes_take (xs : List UINT1) {n : ℕ} (hn : size ≤ n) (hx : size ≤ xs.length) :
    ofBytes (xs.take n) = ofBytes xs := by
  conv_rhs => rw [← List.take_append_drop n xs]
  apply (ofBytes_append _ _ _).symm
  rw [List.length_take]
  omega

theorem ofBytes_length_lt (bytes : List UINT1) : (ofBytes bytes).length < 65536 := by
  have h2 := UInt8.toNat_lt (bytes.getD 2 0)
  have h3 := UInt8.toNat_lt (bytes.getD 3 0)
  show (bytes.getD 2 0).toNat * 256 + (bytes.getD 3 0).toNat < 65536
  omega

end OfpHeader

def ofpFramer : Framer UINT1 where
  header := OfpHeader.size
  size := fun bytes => (OfpHeader.ofBytes bytes).length
  size_append := fun xs ys hx => congrArg OfpHeader.length (OfpHeader.ofBytes_append xs ys hx)

structure CMsg where
  sockfd : INT4
  version : UINT1
  type : UINT1
  data : List UINT1
  len : ℕ

def CMsg.ofHeader (sockfd : INT4) (header : OfpHeader) (pdata : List UINT1) : CMsg :=
  { sockfd, version := header.version, type := header.type, data := pdata, len := header.length }

def CMsg.ofBytes (sockfd : INT4) (bytes : List UINT1) : CMsg := CMsg.ofHeader sockfd (OfpHeader.ofBytes bytes) bytes

inductive Fault where
  | outOfBounds
  | wrappedLength
deriving DecidableEq

structure COfRecvWorker where
  m_recvBuffer : INT4 → Option CLoopBuffer

namespace COfRecvWorker

def recv_buffer_size : ℕ := 65536

def new : COfRecvWorker := { m_recvBuffer := fun _ => none }

def store (w : COfRecvWorker) (sockfd : INT4) (recvBuffer : CLoopBuffer) : COfRecvWorker :=
  { w with m_recvBuffer := Function.update w.m_recvBuffer sockfd (some recvBuffer) }

def createRecvBuffer (w : COfRecvWorker) (sockfd : INT4) : COfRecvWorker :=
  match w.m_recvBuffer sockfd with
  | none => w.store sockfd (CLoopBuffer.ofSize recv_buffer_size)
  | some recvBuffer => w.store sockfd recvBuffer.reset

def addConnFd (w : COfRecvWorker) (fd : INT4) : COfRecvWorker := w.createRecvBuffer fd

def write (w : COfRecvWorker) (sockfd : INT4) (recvBuffer : CLoopBuffer) (data : List UINT1) :
    Except Fault COfRecvWorker :=
  match recvBuffer.write data with
  | none => .error .outOfBounds
  | some (_, recvBuffer) => .ok (w.store sockfd recvBuffer)

def read (recvBuffer : CLoopBuffer) (len : ℕ) (peek : Bool) : Except Fault (List UINT1 × CLoopBuffer) :=
  match recvBuffer.read len peek with
  | none => .error .outOfBounds
  | some (bytes, recvBuffer) => .ok (bytes.getD [], recvBuffer)

-- The rest of the loop's buffer, or `none` where it meets a header shorter than itself.
def procRecvLoop (sockfd : INT4) : ℕ → List UINT1 → List CMsg × Option (List UINT1)
  | 0, buffer => ([], some buffer)
  | fuel + 1, buffer =>
    if buffer.length < OfpHeader.size then
      ([], some buffer)
    else
      let header := OfpHeader.ofBytes buffer
      if header.length < OfpHeader.size then
        ([], none)
      else if buffer.length < header.length then
        ([], some buffer)
      else
        let ofmsg := CMsg.ofHeader sockfd header (buffer.take header.length)
        let (msgs, left) := procRecvLoop sockfd fuel (buffer.drop header.length)
        (ofmsg :: msgs, left)

def procRecvBuffer (w : COfRecvWorker) (sockfd : INT4) (buffer : List UINT1) (recvBuffer : CLoopBuffer) :
    Except Fault (INT4 × List CMsg × COfRecvWorker) :=
  match procRecvLoop sockfd buffer.length buffer with
  | (msgs, none) => .ok (BNC_ERR, msgs, w.store sockfd recvBuffer)
  | (msgs, some left) =>
    if 0 < left.length then do
      let w ← w.write sockfd recvBuffer left
      return (BNC_OK, msgs, w)
    else
      .ok (BNC_OK, msgs, w.store sockfd recvBuffer)

def bufferedHeader (recvBuffer : CLoopBuffer) (buffer : List UINT1) : Except Fault OfpHeader := do
  if recvBuffer.length < OfpHeader.size then
    let (bytes, _) ← read recvBuffer recvBuffer.length true
    return OfpHeader.ofBytes (bytes ++ buffer.take (OfpHeader.size - recvBuffer.length))
  else
    let (bytes, _) ← read recvBuffer OfpHeader.size true
    return OfpHeader.ofBytes bytes

def completeMsg (w : COfRecvWorker) (sockfd : INT4) (buffer : List UINT1) (recvBuffer : CLoopBuffer)
    (header : OfpHeader) : Except Fault (INT4 × List CMsg × COfRecvWorker) :=
  let recvBufLen := recvBuffer.length
  let lenTotal := header.length
  if lenTotal < recvBufLen then
    .error .wrappedLength
  else do
    let (bytes, recvBuffer) ← read recvBuffer recvBufLen false
    let ofmsg := CMsg.ofHeader sockfd header (bytes ++ buffer.take (lenTotal - recvBufLen))
    let bufLeft := buffer.drop (lenTotal - recvBufLen)
    if 0 < bufLeft.length then
      let (ret, msgs, w) ← w.procRecvBuffer sockfd bufLeft recvBuffer
      return (ret, ofmsg :: msgs, w)
    else
      return (BNC_OK, [ofmsg], w.store sockfd recvBuffer)

def process (w : COfRecvWorker) (sockfd : INT4) (buffer : List UINT1) :
    Except Fault (INT4 × List CMsg × COfRecvWorker) :=
  match w.m_recvBuffer sockfd with
  | none => .ok (BNC_ERR, [], w)
  | some recvBuffer =>
    let recvBufLen := recvBuffer.length
    if recvBufLen = 0 then
      w.procRecvBuffer sockfd buffer recvBuffer
    else if u4 (recvBufLen + buffer.length) < OfpHeader.size then do
      let w ← w.write sockfd recvBuffer buffer
      return (BNC_OK, [], w)
    else do
      let header ← bufferedHeader recvBuffer buffer
      if u4 (recvBufLen + buffer.length) < header.length then
        let w ← w.write sockfd recvBuffer buffer
        return (BNC_OK, [], w)
      else
        w.completeMsg sockfd buffer recvBuffer header

-- receive() hands over what a socket has to read; `s.1` is what went into the message tree so far.
def receive (s : List CMsg × COfRecvWorker) (c : INT4 × List UINT1) : Except Fault (List CMsg × COfRecvWorker) := do
  let (_, msgs, w) ← s.2.process c.1 c.2
  return (s.1 ++ msgs, w)

def receiveAll (w : COfRecvWorker) (trace : List (INT4 × List UINT1)) : Except Fault (List CMsg × COfRecvWorker) :=
  trace.foldlM receive ([], w)

def Awaiting (w : COfRecvWorker) (sockfd : INT4) (tail : List UINT1) : Prop :=
  ∃ recvBuffer, w.m_recvBuffer sockfd = some recvBuffer ∧ recvBuffer.Valid ∧ recvBuffer.contents = tail

variable {w : COfRecvWorker} {sockfd : INT4} {buffer tail : List UINT1} {recvBuffer : CLoopBuffer}

theorem incomplete_length (ht : ofpFramer.Incomplete tail) : tail.length < 65536 := by
  by_cases hh : OfpHeader.size ≤ tail.length
  · exact (ht hh).2.trans (OfpHeader.ofBytes_length_lt tail)
  · have h8 : OfpHeader.size = 8 := rfl
    omega

theorem awaiting_store (hb : recvBuffer.Valid) : (w.store sockfd recvBuffer).Awaiting sockfd recvBuffer.contents :=
  ⟨recvBuffer, Function.update_self .., hb, rfl⟩

theorem awaiting_store_of_ne {fd : INT4} (hf : fd ≠ sockfd) :
    (w.store sockfd recvBuffer).Awaiting fd tail ↔ w.Awaiting fd tail := by
  simp only [Awaiting, store, Function.update_of_ne hf]

theorem addConnFd_awaiting (hw : ∀ b, w.m_recvBuffer sockfd = some b → b.Valid) :
    (w.addConnFd sockfd).Awaiting sockfd [] := by
  rw [addConnFd, createRecvBuffer]
  split
  · exact awaiting_store (CLoopBuffer.Valid.ofSize (by decide))
  · next b hb => exact awaiting_store (hw b hb).reset

theorem new_awaiting (fd : INT4) : (new.addConnFd fd).Awaiting fd [] :=
  addConnFd_awaiting (fun _ hb => absurd hb (Option.some_ne_none _).symm)

theorem take_message (hs : ofpFramer.Sound buffer) (hh : OfpHeader.size ≤ buffer.length)
    (hl : (OfpHeader.ofBytes buffer).length ≤ buffer.length) :
    ofpFramer.Message (buffer.take (OfpHeader.ofBytes buffer).length) :=
  Framer.Message.of_take (F := ofpFramer) (hs [] buffer rfl (List.forall_mem_nil _) hh) hl

theorem procRecvLoop_spec (sockfd : INT4) (fuel : ℕ) (hs : ofpFramer.Sound buffer) (hfuel : buffer.length ≤ fuel) :
    ∃ ms left, ofpFramer.Frames buffer ms left ∧
      procRecvLoop sockfd fuel buffer = (ms.map (CMsg.ofBytes sockfd), some left) := by
  have h8 : OfpHeader.size = 8 := rfl
  induction fuel generalizing buffer with
  | zero =>
    refine ⟨[], buffer, Framer.Frames.nil ?_, rfl⟩
    intro (hh : OfpHeader.size ≤ buffer.length)
    omega
  | succ fuel ih =>
    rw [procRecvLoop]
    split
    · next hh =>
      refine ⟨[], buffer, Framer.Frames.nil ?_, rfl⟩
      intro (hl : OfpHeader.size ≤ buffer.length)
      omega
    · next hh =>
      have hge : OfpHeader.size ≤ (OfpHeader.ofBytes buffer).length :=
        hs [] buffer rfl (List.forall_mem_nil _) (not_lt.1 hh)
      simp only [if_neg (not_lt.2 hge)]
      split
      · next hl => exact ⟨[], buffer, Framer.Frames.nil (fun _ => ⟨hge, hl⟩), rfl⟩
      · next hl =>
        have hm := take_message hs (not_lt.1 hh) (not_lt.1 hl)
        have hcut := List.take_append_drop (OfpHeader.ofBytes buffer).length buffer
        have hdrop : (buffer.drop (OfpHeader.ofBytes buffer).length).length ≤ fuel := by
          rw [List.length_drop]
          omega
        have hrest : ofpFramer.Sound (buffer.drop (OfpHeader.ofBytes buffer).length) := by
          refine Framer.Announces.drop ?_ hm
          rw [hcut]
          exact hs
        obtain ⟨ms, left, hf, hr⟩ := ih hrest hdrop
        refine ⟨_, left, hcut ▸ Framer.Frames.cons hm hf, ?_⟩
        rw [hr, List.map_cons, CMsg.ofBytes, OfpHeader.ofBytes_take _ hge (not_lt.1 hh)]

theorem write_spec (w : COfRecvWorker) (sockfd : INT4) (data : List UINT1) (hb : recvBuffer.Valid)
    (hc : recvBuffer.contents = tail)
    (hl : tail.length + data.length + LOOP_BUFFER_EXT_SIZE < 2 ^ 32) :
    ∃ b, w.write sockfd recvBuffer data = .ok (w.store sockfd b) ∧ b.Valid ∧ b.contents = tail ++ data := by
  have hlen := hb.contents_length
  rw [write]
  by_cases hd : data = []
  · subst hd
    exact ⟨recvBuffer, rfl, hb, by rw [hc, List.append_nil]⟩
  · rw [hc] at hlen
    obtain ⟨b, hw, hv, hb'⟩ := hb.write_spec hd (by omega)
    rw [hw, ← hc]
    exact ⟨b, rfl, hv, hb'⟩

theorem procRecvBuffer_spec (w : COfRecvWorker) (sockfd : INT4) (hs : ofpFramer.Sound buffer) (hb : recvBuffer.Valid)
    (hc : recvBuffer.contents = []) :
    ∃ ret ms left b, w.procRecvBuffer sockfd buffer recvBuffer =
        .ok (ret, ms.map (CMsg.ofBytes sockfd), w.store sockfd b) ∧
      ofpFramer.Frames buffer ms left ∧ b.Valid ∧ b.contents = left := by
  obtain ⟨ms, left, hf, hr⟩ := procRecvLoop_spec sockfd buffer.length hs le_rfl
  have hlt := incomplete_length hf.tail
  simp only [procRecvBuffer, hr]
  split
  · next hl =>
    have he : LOOP_BUFFER_EXT_SIZE = 102400 := rfl
    obtain ⟨b, hw, hv, hb'⟩ := write_spec w sockfd left hb hc
      (by rw [List.length_nil]; omega)
    refine ⟨BNC_OK, ms, left, b, ?_, hf, hv, hb'⟩
    rw [hw]
    rfl
  · next hl =>
    have hnil : left = [] := List.eq_nil_of_length_eq_zero (by omega)
    exact ⟨BNC_OK, ms, left, recvBuffer, rfl, hf, hb, hnil ▸ hc⟩

theorem read_spec {len : ℕ} (hb : recvBuffer.Valid) (hl : len ≤ recvBuffer.m_curLen) :
    ∃ b, read recvBuffer len false = .ok (recvBuffer.contents.take len, b) ∧ b.Valid ∧
      b.contents = recvBuffer.contents.drop len := by
  obtain ⟨b, hr, hv, hc⟩ := hb.read_spec hl
  exact ⟨b, by rw [read, hr]; rfl, hv, hc⟩

theorem peek_eq {len : ℕ} (hb : recvBuffer.Valid) (hl : len ≤ recvBuffer.m_curLen) :
    read recvBuffer len true = .ok (recvBuffer.contents.take len, recvBuffer) := by
  rw [read, hb.peek_eq hl]
  rfl

theorem bufferedHeader_eq (hb : recvBuffer.Valid)
    (hh : OfpHeader.size ≤ recvBuffer.contents.length + buffer.length) :
    bufferedHeader recvBuffer buffer = .ok (OfpHeader.ofBytes (recvBuffer.contents ++ buffer)) := by
  have hlen : recvBuffer.length = recvBuffer.contents.length := hb.contents_length.symm
  rw [bufferedHeader, hlen]
  split
  · next hs =>
    have htake : (recvBuffer.contents ++ buffer).take OfpHeader.size =
        recvBuffer.contents ++ buffer.take (OfpHeader.size - recvBuffer.contents.length) := by
      rw [List.take_append, List.take_of_length_le hs.le]
    have hcat : OfpHeader.size ≤ (recvBuffer.contents ++ buffer).length := by rw [List.length_append]; exact hh
    rw [peek_eq hb hlen.ge, List.take_length, ← OfpHeader.ofBytes_take _ le_rfl hcat, htake]
    rfl
  · next hs =>
    rw [peek_eq hb ((not_lt.1 hs).trans hlen.ge), OfpHeader.ofBytes_append _ _ (not_lt.1 hs),
      ← OfpHeader.ofBytes_take _ le_rfl (not_lt.1 hs)]
    rfl

theorem completeMsg_eq (w : COfRecvWorker) (sockfd : INT4) (buffer : List UINT1) {header : OfpHeader}
    (hb : recvBuffer.Valid)
    (hl : recvBuffer.contents.length ≤ header.length) :
    ∃ b, b.Valid ∧ b.contents = [] ∧ w.completeMsg sockfd buffer recvBuffer header = do
      let (ret, msgs, w) ← w.procRecvBuffer sockfd ((recvBuffer.contents ++ buffer).drop header.length) b
      return (ret, CMsg.ofHeader sockfd header ((recvBuffer.contents ++ buffer).take header.length) :: msgs, w) := by
  have hlen : recvBuffer.length = recvBuffer.contents.length := hb.contents_length.symm
  obtain ⟨b, hr, hv, hc⟩ := read_spec hb hb.contents_length.le
  rw [List.take_length] at hr
  rw [List.drop_length] at hc
  refine ⟨b, hv, hc, ?_⟩
  rw [List.take_append, List.drop_append, List.take_of_length_le hl, List.drop_eq_nil_of_le hl, List.nil_append]
  simp only [completeMsg, hlen]
  rw [if_neg (not_lt.2 hl), hr]
  by_cases hpos : 0 < (buffer.drop (header.length - recvBuffer.contents.length)).length
  · simp only [Except.bind, bind, if_pos hpos]
  · rw [List.eq_nil_of_length_eq_zero (Nat.eq_zero_of_not_pos hpos)]
    rfl

theorem completeMsg_spec (w : COfRecvWorker) (sockfd : INT4) (hb : recvBuffer.Valid)
    (ht : ofpFramer.Incomplete recvBuffer.contents)
    (hs : ofpFramer.Sound (recvBuffer.contents ++ buffer))
    (hh : OfpHeader.size ≤ (recvBuffer.contents ++ buffer).length)
    (hl : (OfpHeader.ofBytes (recvBuffer.contents ++ buffer)).length ≤ (recvBuffer.contents ++ buffer).length) :
    ∃ ret ms left b,
      w.completeMsg sockfd buffer recvBuffer (OfpHeader.ofBytes (recvBuffer.contents ++ buffer)) =
        .ok (ret, ms.map (CMsg.ofBytes sockfd), w.store sockfd b) ∧
      ofpFramer.Frames (recvBuffer.contents ++ buffer) ms left ∧ b.Valid ∧ b.contents = left := by
  have hge : OfpHeader.size ≤ (OfpHeader.ofBytes (recvBuffer.contents ++ buffer)).length :=
    hs [] _ rfl (List.forall_mem_nil _) hh
  have hbuf : recvBuffer.contents.length ≤ (OfpHeader.ofBytes (recvBuffer.contents ++ buffer)).length := by
    by_cases h8 : OfpHeader.size ≤ recvBuffer.contents.length
    · rw [OfpHeader.ofBytes_append _ _ h8]
      exact (ht h8).2.le
    · omega
  have hm := take_message hs hh hl
  have hcut := List.take_append_drop (OfpHeader.ofBytes (recvBuffer.contents ++ buffer)).length
    (recvBuffer.contents ++ buffer)
  have hrest := Framer.Announces.drop (by rw [hcut]; exact hs) hm
  obtain ⟨c, hv, hc, he⟩ := completeMsg_eq w sockfd buffer hb hbuf
  obtain ⟨ret, ms, left, b, hp, hf, hvb, hcb⟩ := procRecvBuffer_spec w sockfd hrest hv hc
  refine ⟨ret, _, left, b, ?_, hcut ▸ Framer.Frames.cons hm hf, hvb, hcb⟩
  rw [he, hp, List.map_cons, CMsg.ofBytes, OfpHeader.ofBytes_take _ hge hh]
  rfl

/-- One received chunk, whatever is buffered: the messages it completes come out, its incomplete tail stays. -/
theorem process_spec (hw : w.Awaiting sockfd tail) (ht : ofpFramer.Incomplete tail)
    (hs : ofpFramer.Sound (tail ++ buffer)) (hmax : buffer.length ≤ max_recv_buffer_size) :
    ∃ ret ms left b, w.process sockfd buffer = .ok (ret, ms.map (CMsg.ofBytes sockfd), w.store sockfd b) ∧
      ofpFramer.Frames (tail ++ buffer) ms left ∧ b.Valid ∧ b.contents = left := by
  obtain ⟨recvBuffer, hmap, hb, rfl⟩ := hw
  have hlen : recvBuffer.length = recvBuffer.contents.length := hb.contents_length.symm
  have happ : (recvBuffer.contents ++ buffer).length = recvBuffer.contents.length + buffer.length := List.length_append
  have hlt := incomplete_length ht
  have he : LOOP_BUFFER_EXT_SIZE = 102400 := rfl
  have hx : max_recv_buffer_size = 204800 := rfl
  have h8 : OfpHeader.size = 8 := rfl
  have hu : u4 (recvBuffer.contents.length + buffer.length) = recvBuffer.contents.length + buffer.length :=
    u4_of_lt (by omega)
  obtain ⟨b, hwr, hv, hc⟩ := write_spec w sockfd buffer hb rfl (by omega)
  have hkeep : ofpFramer.Incomplete (recvBuffer.contents ++ buffer) →
      ∃ ret ms left c, (do let w ← w.write sockfd recvBuffer buffer; return (BNC_OK, [], w)) =
          Except.ok (ε := Fault) (ret, ms.map (CMsg.ofBytes sockfd), w.store sockfd c) ∧
        ofpFramer.Frames (recvBuffer.contents ++ buffer) ms left ∧ c.Valid ∧ c.contents = left := by
    intro hin
    exact ⟨BNC_OK, [], _, b, by rw [hwr]; rfl, Framer.Frames.nil hin, hv, hc⟩
  simp only [process, hmap, hlen, hu]
  split
  · next h0 =>
    have hnil := List.eq_nil_of_length_eq_zero h0
    rw [hnil] at hs ⊢
    exact procRecvBuffer_spec w sockfd hs hb hnil
  · split
    · next hshort =>
      apply hkeep
      intro (hh : OfpHeader.size ≤ _)
      omega
    · next hlong =>
      rw [bufferedHeader_eq hb (not_lt.1 hlong)]
      simp only [Except.bind, bind]
      split
      · next hpart =>
        apply hkeep
        intro (hh : OfpHeader.size ≤ _)
        exact ⟨hs [] _ rfl (List.forall_mem_nil _) hh, by rw [happ]; exact hpart⟩
      · next hfull => exact completeMsg_spec w sockfd hb ht hs (by omega) (by omega)

end COfRecvWorker

end DCFabric
