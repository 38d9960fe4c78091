import DCFabric.LoopBuffer
import DCFabric.MessageFraming
import DCFabric.RecvWorker

namespace DCFabric

open MessageFraming

namespace ClusterHeader

def size : ℕ := 8

def FIELD_NUM_MAX : ℕ := 204800

def FIELD_MEM_SIZE : ℕ := (4 + 64) * FIELD_NUM_MAX

-- The length field of cluster_interface_t, in the byte order of the host.
def length (bytes : List UINT1) : ℕ :=
  (bytes.getD 4 0).toNat + 256 * ((bytes.getD 5 0).toNat + 256 * ((bytes.getD 6 0).toNat +
    256 * (bytes.getD 7 0).toNat))

def msgLen (bytes : List UINT1) : ℕ := u4 (size + length bytes)

theorem msgLen_append (xs ys : List UINT1) (hx : size ≤ xs.length) : msgLen (xs ++ ys) = msgLen xs := by
  have h8 : 8 ≤ xs.length := hx
  rw [msgLen, length, List.getD_append _ _ _ _ (by omega), List.getD_append _ _ _ _ (by omega),
    List.getD_append _ _ _ _ (by omega), List.getD_append _ _ _ _ (by omega)]
  rfl

theorem msgLen_take (xs : List UINT1) (hx : size ≤ xs.length) : msgLen (xs.take size) = msgLen xs := by
  conv_rhs => rw [← List.take_append_drop size xs]
  apply (msgLen_append _ _ _).symm
  rw [List.length_take]
  omega

end ClusterHeader

def clusterFramer : Framer UINT1 where
  header := ClusterHeader.size
  size := ClusterHeader.msgLen
  size_append := ClusterHeader.msgLen_append

structure CClusterRecvWorker where
  m_size : ℕ
  m_loopBuffer : CLoopBuffer

namespace CClusterRecvWorker

def ofSize (m_size : ℕ) : CClusterRecvWorker := { m_size, m_loopBuffer := CLoopBuffer.ofSize (2 * m_size) }

def new : CClusterRecvWorker := ofSize (ClusterHeader.size + 4 + ClusterHeader.FIELD_MEM_SIZE)

-- `none` is an access out of bounds, or a loop that the fuel does not bring to its end.
def processLoop (sockfd : INT4) : ℕ → CClusterRecvWorker → Option (List (INT4 × List UINT1) × CClusterRecvWorker)
  | 0, _ => none
  | fuel + 1, w =>
    match w.m_loopBuffer.read ClusterHeader.size true with
    | none => none
    | some (none, _) => some ([], w)
    | some (some itf, _) =>
      if w.m_loopBuffer.length < ClusterHeader.msgLen itf then
        some ([], w)
      else if w.m_size < ClusterHeader.msgLen itf then
        none
      else
        match w.m_loopBuffer.read (ClusterHeader.msgLen itf) false with
        | none => none
        | some (none, m_loopBuffer) => some ([], { w with m_loopBuffer })
        | some (some msg, m_loopBuffer) => do
          let (msgs, w) ← processLoop sockfd fuel { w with m_loopBuffer }
          return ((sockfd, msg) :: msgs, w)

def process (w : CClusterRecvWorker) (sockfd : INT4) (buffer : List UINT1) :
    Option (List (INT4 × List UINT1) × CClusterRecvWorker) := do
  let (written, m_loopBuffer) ← w.m_loopBuffer.write buffer
  if written then
    processLoop sockfd (m_loopBuffer.length + 1) { w with m_loopBuffer }
  else
    return ([], { w with m_loopBuffer })

def receive (s : List (INT4 × List UINT1) × CClusterRecvWorker) (c : INT4 × List UINT1) :
    Option (List (INT4 × List UINT1) × CClusterRecvWorker) := do
  let (msgs, w) ← s.2.process c.1 c.2
  return (s.1 ++ msgs, w)

def receiveAll (w : CClusterRecvWorker) (trace : List (INT4 × List UINT1)) :
    Option (List (INT4 × List UINT1) × CClusterRecvWorker) :=
  trace.foldlM receive ([], w)

structure Holds (w : CClusterRecvWorker) (tail : List UINT1) : Prop where
  valid : w.m_loopBuffer.Valid
  contents : w.m_loopBuffer.contents = tail

def Fits (w : CClusterRecvWorker) (xs : List UINT1) : Prop :=
  clusterFramer.Announces (fun n => ClusterHeader.size ≤ n ∧ n ≤ w.m_size) xs

variable {w : CClusterRecvWorker} {sockfd : INT4} {buffer tail : List UINT1}

theorem ofSize_holds {m_size : ℕ} (hs : 2 * m_size < 2 ^ 32) : (ofSize m_size).Holds [] :=
  ⟨CLoopBuffer.Valid.ofSize hs, CLoopBuffer.contents_ofSize⟩

theorem size_lt : 2 * (ClusterHeader.size + 4 + ClusterHeader.FIELD_MEM_SIZE) < 2 ^ 32 := by
  rw [ClusterHeader.size, ClusterHeader.FIELD_MEM_SIZE, ClusterHeader.FIELD_NUM_MAX]
  omega

theorem new_holds : new.Holds [] := ofSize_holds size_lt

theorem Fits.sound {xs : List UINT1} (hs : w.Fits xs) : clusterFramer.Sound xs := hs.mono (fun _ hn => hn.1)

theorem processLoop_spec (fuel : ℕ) (hw : w.Holds tail) (hs : w.Fits tail) (hfuel : tail.length < fuel) :
    ∃ ms left w', processLoop sockfd fuel w = some (ms.map (fun m => (sockfd, m)), w') ∧
      clusterFramer.Frames tail ms left ∧ w'.Holds left ∧ w'.m_size = w.m_size := by
  induction fuel generalizing w tail with
  | zero => omega
  | succ fuel ih =>
    have h8 : ClusterHeader.size = 8 := rfl
    have hlen : w.m_loopBuffer.length = tail.length := hw.contents ▸ hw.valid.contents_length.symm
    have hcur : w.m_loopBuffer.m_curLen = tail.length := hlen
    by_cases hh : ClusterHeader.size ≤ tail.length
    · have hsize : ClusterHeader.size ≤ ClusterHeader.msgLen tail ∧ ClusterHeader.msgLen tail ≤ w.m_size :=
        hs [] tail rfl (List.forall_mem_nil _) hh
      simp only [processLoop, hw.valid.peek_eq (hh.trans hcur.ge), hw.contents, ClusterHeader.msgLen_take _ hh, hlen]
      split
      · next hl => exact ⟨[], tail, w, rfl, Framer.Frames.nil (fun _ => ⟨hsize.1, hl⟩), hw, rfl⟩
      · next hl =>
        have hm := Framer.Message.of_take (F := clusterFramer) hsize.1 (not_lt.1 hl)
        have hcut := List.take_append_drop (ClusterHeader.msgLen tail) tail
        obtain ⟨b, hr, hv, hc⟩ := hw.valid.read_spec ((not_lt.1 hl).trans hcur.ge)
        rw [hw.contents] at hr hc
        have hrest : w.Fits (tail.drop (ClusterHeader.msgLen tail)) :=
          Framer.Announces.drop (hcut.symm ▸ hs) hm
        obtain ⟨ms, left, w', hl', hf, hw', hsz⟩ := ih (w := { w with m_loopBuffer := b }) ⟨hv, hc⟩ hrest
          (by rw [List.length_drop]; omega)
        refine ⟨_, left, w', ?_, hcut ▸ Framer.Frames.cons hm hf, hw', hsz⟩
        rw [if_neg (not_lt.2 hsize.2), hr]
        simp only [hl']
        rfl
    · refine ⟨[], tail, w, ?_, Framer.Frames.nil (fun h => absurd h hh), hw, rfl⟩
      rw [processLoop, CLoopBuffer.read_short (by omega)]
      rfl

theorem process_spec (sockfd : INT4) (hw : w.Holds tail) (hin : clusterFramer.Incomplete tail)
    (hs : w.Fits (tail ++ buffer))
    (hmax : tail.length + buffer.length + LOOP_BUFFER_EXT_SIZE < 2 ^ 32) :
    ∃ ms left w', w.process sockfd buffer = some (ms.map (fun m => (sockfd, m)), w') ∧
      clusterFramer.Frames (tail ++ buffer) ms left ∧ w'.Holds left ∧ w'.m_size = w.m_size := by
  by_cases hb : buffer = []
  · subst hb
    rw [List.append_nil]
    exact ⟨[], tail, w, rfl, Framer.Frames.nil hin, hw, rfl⟩
  · have hlen : tail.length = w.m_loopBuffer.m_curLen := hw.contents ▸ hw.valid.contents_length
    obtain ⟨b, hr, hv, hc⟩ := hw.valid.write_spec hb (by omega)
    rw [hw.contents] at hc
    have hb' : (tail ++ buffer).length = b.m_curLen := hc ▸ hv.contents_length
    rw [process, hr]
    exact processLoop_spec (w := { w with m_loopBuffer := b }) _ ⟨hv, hc⟩ hs (by rw [hb']; exact Nat.lt_succ_self _)

end CClusterRecvWorker

end DCFabric
