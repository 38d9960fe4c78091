import DCFabric.LoopRuns
import DCFabric.RecvWorker

namespace DCFabric

open LoopRuns

def EINTR : INT4 := 4
def EAGAIN : INT4 := 11
def EWOULDBLOCK : INT4 := 11

/-- What `recv` returns, with the bytes it has stored or the `errno` it has set. -/
inductive RecvResult
  | bytes (received : List UINT1)
  | zero
  | error (errnum : INT4)

def RecvResult.Fits (room : ℕ) : RecvResult → Prop
  | .bytes received => 0 < received.length ∧ received.length ≤ room
  | .zero => True
  | .error _ => True

/-- What the calls of `recv` return, by their number and by the size they are called with. -/
structure RecvCalls where
  recv : ℕ → ℕ → RecvResult
  fits : ∀ i room, (recv i room).Fits room

namespace CRecvWorker

/-- `m_buffer` up to `len`. -/
structure Receiving where
  calls : ℕ
  m_buffer : List UINT1

/-- The arguments of the calls of `process`, and whether `processPeerDisconn` is called. -/
structure Received where
  processed : List (List UINT1)
  error : Bool

/-- One pass of the loop of `receive`. -/
def receivePass (sock : RecvCalls) (s : Receiving) : Pass Receiving (List UINT1) Received :=
  match sock.recv s.calls (max_recv_buffer_size - s.m_buffer.length) with
  | .bytes received => .next received ⟨s.calls + 1, s.m_buffer ++ received⟩
  | .zero => .leave ⟨[], true⟩
  | .error errnum =>
    if errnum = EINTR then .next [] ⟨s.calls + 1, s.m_buffer⟩
    else if errnum = EAGAIN ∨ errnum = EWOULDBLOCK then .leave ⟨[s.m_buffer], false⟩
    else .leave ⟨[], true⟩

def receiveStart : Receiving := ⟨0, []⟩

/-- The call of this number would block after these bytes. -/
def WouldBlock (sock : RecvCalls) (calls : ℕ) (received : List UINT1) : Prop :=
  ∃ errnum, sock.recv calls (max_recv_buffer_size - received.length) = .error errnum ∧
    (errnum = EAGAIN ∨ errnum = EWOULDBLOCK)

variable {sock : RecvCalls} {s t : Receiving} {received : List UINT1} {chunks : List (List UINT1)} {out : Received}

theorem receivePass_next (h : receivePass sock s = .next received t) :
    t = ⟨s.calls + 1, s.m_buffer ++ received⟩ ∧ received.length ≤ max_recv_buffer_size - s.m_buffer.length := by
  have hfits := sock.fits s.calls (max_recv_buffer_size - s.m_buffer.length)
  rw [receivePass] at h
  split at h
  · next bytes hrecv =>
    cases h
    rw [hrecv] at hfits
    exact ⟨rfl, hfits.2⟩
  · cases h
  · split_ifs at h
    cases h
    exact ⟨by rw [List.append_nil], Nat.zero_le _⟩

theorem receivePass_leave (h : receivePass sock s = .leave out) :
    out.processed.flatten = s.m_buffer ↔ WouldBlock sock s.calls s.m_buffer ∨ s.m_buffer = [] := by
  rw [receivePass] at h
  split at h
  · cases h
  · next hrecv =>
    cases h
    have hnot : ¬WouldBlock sock s.calls s.m_buffer := by
      rintro ⟨errnum, herror, -⟩
      rw [hrecv] at herror
      cases herror
    rw [or_iff_right hnot]
    exact eq_comm
  · next errnum hrecv =>
    split_ifs at h with hintr hblock
    · cases h
      exact iff_of_true (by simp) (.inl ⟨errnum, hrecv, hblock⟩)
    · cases h
      have hnot : ¬WouldBlock sock s.calls s.m_buffer := by
        rintro ⟨errnum', herror, hblock'⟩
        rw [hrecv] at herror
        cases herror
        exact hblock hblock'
      rw [or_iff_right hnot]
      exact eq_comm

/-- The bytes are never written behind the end of `m_buffer`. -/
theorem receive_fits (h : Passes (receivePass sock) receiveStart chunks s) :
    s.m_buffer.length ≤ max_recv_buffer_size := by
  refine h.invariant (I := fun s => s.m_buffer.length ≤ max_recv_buffer_size) ?_ (Nat.zero_le _)
  intro s received t hs hpass
  obtain ⟨rfl, hle⟩ := receivePass_next hpass
  rw [List.length_append]
  omega

theorem ends_processed_iff (h : Ends (receivePass sock) s chunks out) :
    out.processed.flatten = s.m_buffer ++ chunks.flatten ↔
      WouldBlock sock (s.calls + chunks.length) (s.m_buffer ++ chunks.flatten) ∨ s.m_buffer ++ chunks.flatten = [] := by
  induction h with
  | leave h => simpa using receivePass_leave h
  | next h ht ih =>
    obtain ⟨rfl, -⟩ := receivePass_next h
    rw [List.flatten_cons, ← List.append_assoc, List.length_cons, add_comm _ 1, ← add_assoc]
    exact ih

/-- All that has been received is processed if and only if the call that ends the loop would block or nothing has been
received. -/
theorem receive_processed_iff (sock : RecvCalls) (chunks : List (List UINT1)) (out : Received)
    (h : Ends (receivePass sock) receiveStart chunks out) :
    out.processed.flatten = chunks.flatten ↔ WouldBlock sock chunks.length chunks.flatten ∨ chunks.flatten = [] := by
  simpa [receiveStart] using ends_processed_iff h

/-- One byte is received, and then `last` is returned. -/
def byteThen (last : RecvResult) (hlast : ∀ room, last.Fits room) : RecvCalls where
  recv i room := if i = 0 ∧ 0 < room then .bytes [1] else last
  fits i room := by
    split_ifs with h
    · exact ⟨Nat.one_pos, h.2⟩
    · exact hlast room

theorem blockingByte_processed :
    (Received.mk [[1]] false).processed.flatten = [[1]].flatten ↔
      WouldBlock (byteThen (.error EAGAIN) fun _ => trivial) 1 [1] ∨ [[1]].flatten = ([] : List UINT1) :=
  receive_processed_iff (byteThen (.error EAGAIN) fun _ => trivial) [[1]] ⟨[[1]], false⟩
    (.next (t := ⟨1, [1]⟩) rfl (.leave rfl))

/-- The peer sends a byte and closes the connection. -/
theorem closingByte_not_processed :
    ∃ out, Ends (receivePass (byteThen .zero fun _ => trivial)) receiveStart [[1]] out ∧
      out.processed.flatten ≠ [[1]].flatten :=
  ⟨⟨[], true⟩, .next (t := ⟨1, [1]⟩) rfl (.leave rfl), by decide⟩

end CRecvWorker

end DCFabric
