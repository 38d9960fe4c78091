import DCFabric.OfRecvWorker
import DCFabric.TransitionRuns

namespace DCFabric

open TransitionRuns MessageFraming RingView

def SW_DEFAULT_RECV_BUFFER_LENGTH : ℕ := 102400
def OFP10_MAX_MSG : ℕ := 22
def OFP13_MAX_MSG : ℕ := 30

/-- `sizeof(Recv_Tempbuff)`, the most that one `recv` returns. -/
def Recv_Tempbuff : ℕ := 65535

namespace CLoopBuffer

/-- The block of `loop_buffer_t` grows by 1 KB at least; but for that and the empty write it is handled as the one of
the class. -/
def need_space (b : CLoopBuffer) (len : ℕ) : ℕ :=
  let need_space := u4Sub (u4 (b.m_curLen + len)) b.m_totalLen
  if need_space > 1024 then need_space else 1024

def buffer_room (b : CLoopBuffer) (len : ℕ) : Option CLoopBuffer :=
  if u4 (b.m_curLen + len) > b.m_totalLen then do
    let total := u4 (b.m_totalLen + b.need_space len)
    let fresh ← b.unroll (List.replicate total 0)
    return { b with m_buffer := fresh, m_totalLen := total, m_head := 0 }
  else some b

def buffer_write (b : CLoopBuffer) (p_recv : List UINT1) : Option CLoopBuffer := do
  let b ← b.buffer_room p_recv.length
  let m_buffer ← b.place p_recv
  return { b with m_buffer := m_buffer, m_curLen := u4 (b.m_curLen + p_recv.length) }

def buffer_read (b : CLoopBuffer) (len : ℕ) (peek : Bool) : Option (Option (List UINT1) × CLoopBuffer) :=
  b.read len peek

/-- The bytes fit the block, or a block that is still counted in 32 bits. -/
def HasRoom (b : CLoopBuffer) (len : ℕ) : Prop :=
  b.m_curLen + len ≤ b.m_totalLen ∨ b.m_totalLen + max 1024 (b.m_curLen + len - b.m_totalLen) < 2 ^ 32

/-- The size of the block after a write. -/
def grownLen (b : CLoopBuffer) (len : ℕ) : ℕ :=
  if b.m_curLen + len ≤ b.m_totalLen then b.m_totalLen
  else b.m_totalLen + max 1024 (b.m_curLen + len - b.m_totalLen)

variable {b : CLoopBuffer} {p_recv : List UINT1} {len : ℕ}

theorem need_space_eq (hl : b.m_curLen + len < 2 ^ 32) (hg : b.m_totalLen < b.m_curLen + len) :
    b.need_space len = max 1024 (b.m_curLen + len - b.m_totalLen) := by
  rw [need_space, u4_of_lt hl, u4Sub_of_le hl (by omega)]
  split <;> omega

theorem Valid.buffer_room_spec (hb : b.Valid) (hroom : b.HasRoom len) :
    ∃ b', b.buffer_room len = some b' ∧ b'.Valid ∧ b'.contents = b.contents ∧ b'.m_curLen = b.m_curLen ∧
      b.m_curLen + len ≤ b'.m_totalLen ∧ b'.m_totalLen = b.grownLen len := by
  have hu := hb.cur
  have ht := hb.total
  have hl : b.m_curLen + len < 2 ^ 32 := by
    rcases hroom with h | h <;> omega
  rw [buffer_room, u4_of_lt hl]
  split
  · next hg =>
    have hneed := need_space_eq hl hg
    have hm : b.m_totalLen + b.need_space len < 2 ^ 32 := by
      rcases hroom with h | h <;> omega
    have hr := List.length_replicate (n := b.m_totalLen + b.need_space len) (a := (0 : UINT1))
    have hc := hb.contents_length
    have hf := splice_length (List.replicate (b.m_totalLen + b.need_space len) (0 : UINT1)) 0 b.contents (by omega)
    have hw := window_splice_straight (List.replicate (b.m_totalLen + b.need_space len) (0 : UINT1)) 0 0 b.contents
      (by omega)
    rw [Nat.zero_add, Nat.zero_add, hc] at hw
    have hcopied : b.unroll (List.replicate (b.m_totalLen + b.need_space len) 0) = some _ := hb.unroll_eq (by omega)
    simp only [u4_of_lt hm, hcopied]
    refine ⟨_, rfl, ⟨hf.trans hr, hm, ?_, Or.inl rfl⟩, hw, rfl, ?_, ?_⟩
    · show b.m_curLen ≤ b.m_totalLen + b.need_space len
      omega
    · show b.m_curLen + len ≤ b.m_totalLen + b.need_space len
      omega
    · rw [grownLen, if_neg (by omega), hneed]
  · next hg => exact ⟨b, rfl, hb, rfl, rfl, by omega, by rw [grownLen, if_pos (by omega)]⟩

theorem Valid.buffer_write_spec (hb : b.Valid) (hroom : b.HasRoom p_recv.length) :
    ∃ b', b.buffer_write p_recv = some b' ∧ b'.Valid ∧ b'.contents = b.contents ++ p_recv ∧
      b'.m_totalLen = b.grownLen p_recv.length := by
  obtain ⟨c, hc, hv, hsame, hcur, hfit, htotal⟩ := hb.buffer_room_spec hroom
  have ht := hv.total
  rw [← hcur] at hfit
  have hu : u4 (c.m_curLen + p_recv.length) = c.m_curLen + p_recv.length := u4_of_lt (by omega)
  obtain ⟨cells, hp, hlen, hw⟩ := hv.place_spec hfit
  rw [buffer_write, hc, Option.bind_eq_bind, Option.bind_some, hp, hu, ← hsame]
  exact ⟨_, rfl, ⟨hlen, hv.total, hfit, hv.head⟩, hw, htotal⟩

/-- A full block of 4 GB less 1 KB is followed by an empty one. -/
theorem Valid.buffer_write_wraps (hb : b.Valid) (hfull : b.m_curLen = b.m_totalLen)
    (htotal : b.m_totalLen + 1024 = 2 ^ 32) (x : UINT1) : b.buffer_write [x] = none := by
  have hneed : b.need_space 1 = 1024 := by
    rw [need_space_eq (by omega) (by omega)]
    omega
  have hcopied : b.unroll [] = none := hb.unroll_none (show 0 < b.m_curLen by omega)
  have hroom : b.buffer_room 1 = none := by
    rw [buffer_room, u4_of_lt (by omega), if_pos (by omega)]
    simp only [hneed, htotal]
    rw [show List.replicate (u4 (2 ^ 32)) (0 : UINT1) = [] from rfl, hcopied]
    rfl
  rw [buffer_write, List.length_singleton, hroom]
  rfl

end CLoopBuffer

/-- The processing thread: waiting for an event, before it peeks at a header, and before it reads the message of a
header, to handle it or to skip it. -/
inductive ProcPlace where
  | idle
  | peeking
  | reading (length : ℕ) (handled : Bool)
deriving DecidableEq

/-- The bytes that are still to be received, the loop buffer, or none after an access outside its block, the CONNECTED
events of the switch, and where the two threads are; and the messages that were handled. -/
structure SwitchRecv where
  pending : List UINT1
  recv_loop_buffer : Option CLoopBuffer
  events : ℕ
  receiving : Bool
  proc : ProcPlace
  processed : List (List UINT1)

inductive RecvStep where
  | readable
  | recv (len : ℕ)
  | push_MsgAndEvent
  | msg_process

def msg_check (oh : OfpHeader) : Bool :=
  if oh.version = 1 then oh.type.toNat < OFP10_MAX_MSG
  else if oh.version = 4 then oh.type.toNat < OFP13_MAX_MSG
  else false

def msglen_check (length : ℕ) : Bool := ¬ length < OfpHeader.size

namespace SwitchRecv

def start (stream : List UINT1) : SwitchRecv :=
  ⟨stream, some (CLoopBuffer.ofSize SW_DEFAULT_RECV_BUFFER_LENGTH), 0, false, .idle, []⟩

/-- One buffer access of the processing thread. -/
def msg_process (s : SwitchRecv) (buffer : CLoopBuffer) : SwitchRecv :=
  match s.proc with
  | .idle => s
  | .peeking =>
    match buffer.buffer_read OfpHeader.size true with
    | none => { s with recv_loop_buffer := none }
    | some (none, buffer) => { s with recv_loop_buffer := some buffer, proc := .idle }
    | some (some bytes, buffer) =>
      let header := OfpHeader.ofBytes bytes
      { s with
        recv_loop_buffer := some buffer
        proc := if msglen_check header.length then .reading header.length (msg_check header) else .idle }
  | .reading length handled =>
    match buffer.buffer_read length false with
    | none => { s with recv_loop_buffer := none }
    | some (none, buffer) => { s with recv_loop_buffer := some buffer, proc := .idle }
    | some (some bytes, buffer) =>
      { s with
        recv_loop_buffer := some buffer
        proc := .peeking
        processed := if handled then s.processed ++ [bytes] else s.processed }

def step (s : SwitchRecv) : RecvStep → Option SwitchRecv
  | .readable => if s.receiving then none else some { s with receiving := true }
  | .recv len =>
    match s.recv_loop_buffer with
    | none => none
    | some buffer =>
      if s.receiving ∧ 0 < len ∧ len ≤ Recv_Tempbuff ∧ len ≤ s.pending.length then
        some { s with pending := s.pending.drop len, recv_loop_buffer := buffer.buffer_write (s.pending.take len) }
      else none
  | .push_MsgAndEvent => if s.receiving then some { s with receiving := false, events := s.events + 1 } else none
  | .msg_process =>
    match s.recv_loop_buffer, s.proc with
    | none, _ => none
    | some _, .idle => if s.events = 0 then none else some { s with events := s.events - 1, proc := .peeking }
    | some buffer, _ => some (s.msg_process buffer)

def supported (msg : List UINT1) : Bool := msg_check (OfpHeader.ofBytes msg)

/-- No event is queued and neither thread is in the middle of a run. -/
def Quiet (s : SwitchRecv) : Prop := s.events = 0 ∧ s.receiving = false ∧ s.proc = .idle

/-- The supported ones of the first messages were handled, the buffer goes on behind them, and it holds less than a
message when all is quiet; so that at the end all were handled. -/
structure Delivers (msgs : List (List UINT1)) (s : SwitchRecv) : Prop where
  handled : ∃ buffer before after, s.recv_loop_buffer = some buffer ∧ msgs = before ++ after ∧
    s.processed = before.filter supported ∧ after.flatten = buffer.contents ++ s.pending ∧
    (s.Quiet → ofpFramer.Incomplete buffer.contents)
  complete : s.Quiet → s.pending = [] → s.processed = msgs.filter supported

/-- A piece finds room in the buffer, or in one of less than 4 GB. -/
def KeepsBuffer (s : SwitchRecv) : RecvStep → Prop
  | .recv len => ∀ buffer ∈ s.recv_loop_buffer, buffer.HasRoom len
  | _ => True

variable {msgs : List (List UINT1)} {s s' : SwitchRecv}

/-- The first messages are handled, the buffer and what is still to come spell the others, and a message that is
complete in the buffer has its event, or one of the threads in a run that will see to it. -/
structure Holds (msgs : List (List UINT1)) (s : SwitchRecv) (buffer : CLoopBuffer) (before after : List (List UINT1)) :
    Prop where
  loop_buffer : s.recv_loop_buffer = some buffer
  valid : buffer.Valid
  parts : msgs = before ++ after
  processed : s.processed = before.filter supported
  spelled : after.flatten = buffer.contents ++ s.pending
  header : ∀ length handled, s.proc = .reading length handled → OfpHeader.size ≤ buffer.contents.length ∧
    length = (OfpHeader.ofBytes buffer.contents).length ∧ handled = supported buffer.contents
  awaited : ofpFramer.Incomplete buffer.contents ∨ s.receiving = true ∨ s.events ≠ 0 ∨ s.proc ≠ .idle

/-- What starts with a complete header starts with the message it announces. -/
theorem first_message {after : List (List UINT1)} {xs ys : List UINT1} (hmsgs : ∀ m ∈ after, ofpFramer.Message m)
    (hspelled : after.flatten = xs ++ ys) (hheader : OfpHeader.size ≤ xs.length) :
    ∃ m rest, after = m :: rest ∧ (OfpHeader.ofBytes xs).length = m.length ∧ supported xs = supported m ∧
      OfpHeader.size ≤ m.length := by
  cases after with
  | nil =>
    have hnil : xs = [] := (List.append_eq_nil_iff.mp hspelled.symm).1
    rw [hnil] at hheader
    exact absurd hheader (by decide)
  | cons m rest =>
    obtain ⟨hm, hsize⟩ := hmsgs m List.mem_cons_self
    have hsame : OfpHeader.ofBytes xs = OfpHeader.ofBytes m := by
      rw [← OfpHeader.ofBytes_append xs ys hheader, ← hspelled, List.flatten_cons]
      exact OfpHeader.ofBytes_append m _ hm
    refine ⟨m, rest, rfl, ?_, ?_, hm⟩
    · rw [hsame]
      exact hsize
    · rw [supported, supported, hsame]

theorem Holds.start (msgs : List (List UINT1)) : ∃ buffer,
    Holds msgs (SwitchRecv.start msgs.flatten) buffer [] msgs := by
  refine ⟨CLoopBuffer.ofSize SW_DEFAULT_RECV_BUFFER_LENGTH, rfl, CLoopBuffer.Valid.ofSize (by decide), rfl, rfl, rfl,
    (fun _ _ h => by cases h), .inl ?_⟩
  intro h
  exact absurd h (by decide)

theorem Holds.recv {buffer : CLoopBuffer} {before after : List (List UINT1)} {len : ℕ}
    (hs : Holds msgs s buffer before after) (hk : s.KeepsBuffer (.recv len)) (he : s.step (.recv len) = some s') :
    ∃ buffer', Holds msgs s' buffer' before after := by
  simp only [step, hs.loop_buffer] at he
  obtain ⟨⟨hreceiving, -, -, hlen⟩, he⟩ := Option.ite_none_right_eq_some.mp he
  have htake : (s.pending.take len).length = len := by
    rw [List.length_take]
    omega
  have hroom : buffer.HasRoom (s.pending.take len).length := htake.symm ▸ hk buffer hs.loop_buffer
  obtain ⟨buffer', hwrite, hvalid, hcontents, -⟩ := hs.valid.buffer_write_spec hroom
  rw [hwrite] at he
  obtain rfl := Option.some.inj he
  refine ⟨buffer', { hs with loop_buffer := rfl, valid := hvalid, spelled := ?_, header := ?_, awaited := ?_ }⟩
  · rw [hcontents, List.append_assoc, List.take_append_drop]
    exact hs.spelled
  · intro length handled hproc
    obtain ⟨hheader, hlength, hhandled⟩ := hs.header length handled hproc
    rw [hcontents, supported, OfpHeader.ofBytes_append _ _ hheader, List.length_append]
    exact ⟨by omega, hlength, hhandled⟩
  · exact .inr (.inl hreceiving)

theorem Holds.peek {buffer : CLoopBuffer} {before after : List (List UINT1)} (hmsgs : ∀ m ∈ msgs, ofpFramer.Message m)
    (hs : Holds msgs s buffer before after) (hproc : s.proc = .peeking) :
    Holds msgs (s.msg_process buffer) buffer before after := by
  unfold msg_process
  rw [hproc]
  simp only [CLoopBuffer.buffer_read]
  by_cases hlen : buffer.m_curLen < OfpHeader.size
  · rw [CLoopBuffer.read_short hlen]
    refine { hs with loop_buffer := rfl, header := nofun, awaited := .inl fun h => ?_ }
    rw [hs.valid.contents_length] at h
    exact absurd hlen (Nat.not_lt.mpr h)
  · have hlength := hs.valid.contents_length
    have hheader : OfpHeader.size ≤ buffer.contents.length := by omega
    have hbytes : OfpHeader.ofBytes (buffer.contents.take OfpHeader.size) = OfpHeader.ofBytes buffer.contents :=
      OfpHeader.ofBytes_take _ le_rfl hheader
    have hafter : ∀ m ∈ after, ofpFramer.Message m := by
      intro m hm
      exact hmsgs m (hs.parts ▸ List.mem_append_right _ hm)
    obtain ⟨m, rest, -, hm, -, hsize⟩ := first_message hafter hs.spelled hheader
    rw [hs.valid.peek_eq (by omega)]
    simp only [hbytes]
    rw [msglen_check, if_pos (decide_eq_true (by omega))]
    refine { hs with loop_buffer := rfl, header := ?_, awaited := .inr (.inr (.inr nofun)) }
    rintro length handled ⟨rfl, rfl⟩
    exact ⟨hheader, rfl, rfl⟩

theorem Holds.read {buffer : CLoopBuffer} {before after : List (List UINT1)} {length : ℕ} {handled : Bool}
    (hmsgs : ∀ m ∈ msgs, ofpFramer.Message m) (hs : Holds msgs s buffer before after)
    (hproc : s.proc = .reading length handled) :
    ∃ buffer' before' after', Holds msgs (s.msg_process buffer) buffer' before' after' := by
  obtain ⟨hheader, hlength, hhandled⟩ := hs.header length handled hproc
  have hafter : ∀ m ∈ after, ofpFramer.Message m := by
    intro m hm
    exact hmsgs m (hs.parts ▸ List.mem_append_right _ hm)
  obtain ⟨m, rest, hm, hannounced, hsame, hsize⟩ := first_message hafter hs.spelled hheader
  have hcontents := hs.valid.contents_length
  unfold msg_process
  rw [hproc]
  simp only [CLoopBuffer.buffer_read]
  by_cases hlen : buffer.m_curLen < length
  · rw [CLoopBuffer.read_short hlen]
    refine ⟨buffer, before, after, { hs with loop_buffer := rfl, header := nofun, awaited := .inl fun _ => ?_ }⟩
    exact ⟨show OfpHeader.size ≤ (OfpHeader.ofBytes buffer.contents).length by omega,
      show _ < (OfpHeader.ofBytes buffer.contents).length by omega⟩
  · obtain ⟨buffer', hread, hvalid, hrest⟩ := hs.valid.read_spec (Nat.not_lt.mp hlen)
    have hmessage : buffer.contents.take length = m := by
      have hspelled := congrArg (List.take length) hs.spelled
      rw [List.take_append_of_le_length (by omega), hm, List.flatten_cons,
        List.take_append_of_le_length (by omega), List.take_of_length_le (by omega)] at hspelled
      exact hspelled.symm
    rw [hread]
    refine ⟨buffer', before ++ [m], rest, rfl, hvalid, ?_, ?_, ?_, nofun, .inr (.inr (.inr nofun))⟩
    · rw [hs.parts, hm, List.append_assoc, List.singleton_append]
    · simp only [hmessage, hhandled, hsame, hs.processed, List.filter_append]
      by_cases hsupported : supported m
      · simp [hsupported]
      · simp [hsupported]
    · have hspelled := congrArg (List.drop length) hs.spelled
      rw [List.drop_append_of_le_length (by omega), hm, List.flatten_cons, List.drop_left' (by omega)] at hspelled
      rw [hrest]
      exact hspelled

theorem Holds.step {buffer : CLoopBuffer} {before after : List (List UINT1)} {e : RecvStep}
    (hmsgs : ∀ m ∈ msgs, ofpFramer.Message m) (hs : Holds msgs s buffer before after) (hk : s.KeepsBuffer e)
    (he : s.step e = some s') : ∃ buffer' before' after', Holds msgs s' buffer' before' after' := by
  cases e with
  | readable =>
    obtain ⟨-, he⟩ := Option.ite_none_left_eq_some.mp he
    obtain rfl := Option.some.inj he
    exact ⟨buffer, before, after, { hs with awaited := .inr (.inl rfl) }⟩
  | recv len =>
    obtain ⟨buffer', h⟩ := hs.recv hk he
    exact ⟨buffer', before, after, h⟩
  | push_MsgAndEvent =>
    obtain ⟨-, he⟩ := Option.ite_none_right_eq_some.mp he
    obtain rfl := Option.some.inj he
    exact ⟨buffer, before, after, { hs with awaited := .inr (.inr (.inl (Nat.succ_ne_zero _))) }⟩
  | msg_process =>
    cases hproc : s.proc with
    | idle =>
      simp only [SwitchRecv.step, hs.loop_buffer, hproc] at he
      obtain ⟨-, he⟩ := Option.ite_none_left_eq_some.mp he
      obtain rfl := Option.some.inj he
      exact ⟨buffer, before, after,
        { hs with header := nofun, loop_buffer := rfl, awaited := .inr (.inr (.inr nofun)) }⟩
    | peeking =>
      simp only [SwitchRecv.step, hs.loop_buffer, hproc] at he
      obtain rfl := Option.some.inj he
      exact ⟨buffer, before, after, hs.peek hmsgs hproc⟩
    | reading length handled =>
      simp only [SwitchRecv.step, hs.loop_buffer, hproc] at he
      obtain rfl := Option.some.inj he
      exact hs.read hmsgs hproc

theorem Holds.delivers {buffer : CLoopBuffer} {before after : List (List UINT1)}
    (hmsgs : ∀ m ∈ msgs, ofpFramer.Message m) (hs : Holds msgs s buffer before after) : Delivers msgs s := by
  have hquiet : s.Quiet → ofpFramer.Incomplete buffer.contents := by
    rintro ⟨hevents, hreceiving, hproc⟩
    rcases hs.awaited with h | h | h | h
    · exact h
    · rw [hreceiving] at h
      cases h
    · exact absurd hevents h
    · exact absurd hproc h
  refine ⟨⟨buffer, before, after, hs.loop_buffer, hs.parts, hs.processed, hs.spelled, hquiet⟩, ?_⟩
  intro hq hpending
  have hall : after = [] := by
    have hspelled := hs.spelled
    rw [hpending, List.append_nil] at hspelled
    cases after with
    | nil => rfl
    | cons m rest =>
      obtain ⟨hm, hsize⟩ := hmsgs m (hs.parts ▸ List.mem_append_right _ List.mem_cons_self)
      have hlength : buffer.contents.length = m.length + rest.flatten.length := by
        rw [← hspelled, List.flatten_cons, List.length_append]
      have hlt := (hquiet hq (hm.trans (by omega))).2
      have hannounced : ofpFramer.size buffer.contents = m.length := by
        rw [← hspelled, List.flatten_cons, ofpFramer.size_append _ _ hm]
        exact hsize
      omega
  rw [hs.processed, hs.parts, hall, List.append_nil]

/-- As long as each piece has room the messages are handled or skipped in their order, and none waits unattended. -/
theorem recv_buffer_delivers (hmsgs : ∀ m ∈ msgs, ofpFramer.Message m)
    (h : Run SwitchRecv.step KeepsBuffer (SwitchRecv.start msgs.flatten) s) : Delivers msgs s := by
  obtain ⟨buffer, before, after, hs⟩ : ∃ buffer before after, Holds msgs s buffer before after := by
    refine h.invariant (P := fun s => ∃ buffer before after, Holds msgs s buffer before after) ?_ ?_
    · rintro t e u ⟨buffer, before, after, ht⟩ hk he
      exact ht.step hmsgs hk he
    · obtain ⟨buffer, hs⟩ := Holds.start msgs
      exact ⟨buffer, [], msgs, hs⟩
  exact hs.delivers hmsgs

/-- A message that comes in one piece is handled or skipped, and all is quiet. -/
theorem message_taken {m : List UINT1} (hm : ofpFramer.Message m) : ∃ s,
    Run SwitchRecv.step KeepsBuffer (SwitchRecv.start [m].flatten) s ∧ s.Quiet ∧ s.pending = [] := by
  have hlt : m.length < 65536 := hm.2 ▸ OfpHeader.ofBytes_length_lt m
  have hpos : 8 ≤ m.length := hm.1
  have hstart : (CLoopBuffer.ofSize SW_DEFAULT_RECV_BUFFER_LENGTH).Valid := CLoopBuffer.Valid.ofSize (by decide)
  have hroom : (CLoopBuffer.ofSize SW_DEFAULT_RECV_BUFFER_LENGTH).HasRoom m.length :=
    .inl (show 0 + m.length ≤ 102400 by omega)
  obtain ⟨full, hwrite, hfull, hcontents, -⟩ := hstart.buffer_write_spec hroom
  rw [CLoopBuffer.contents_ofSize, List.nil_append] at hcontents
  have hlength : full.m_curLen = m.length := by rw [← hfull.contents_length, hcontents]
  obtain ⟨empty, hread, hempty, hnone⟩ := hfull.read_spec (show m.length ≤ full.m_curLen by omega)
  have hzero : empty.m_curLen = 0 := by
    rw [← hempty.contents_length, hnone, hcontents, List.drop_length]
    rfl
  have hsize : OfpHeader.size ≤ full.m_curLen := hlength ▸ hm.1
  have hpeek := hfull.peek_eq hsize
  have hmessage : full.contents.take m.length = m := by rw [hcontents, List.take_length]
  rw [hmessage] at hread
  have hheader : OfpHeader.ofBytes (full.contents.take OfpHeader.size) = OfpHeader.ofBytes m := by
    rw [hcontents, OfpHeader.ofBytes_take _ le_rfl hm.1]
  have hannounced : (OfpHeader.ofBytes m).length = m.length := hm.2
  have hcheck : msglen_check m.length = true := decide_eq_true (show ¬ m.length < 8 by omega)
  have hshort : empty.m_curLen < OfpHeader.size := hzero ▸ (by decide)
  rw [List.flatten_singleton]
  have hrecv : Run SwitchRecv.step KeepsBuffer (SwitchRecv.start m) ⟨[], some full, 0, true, .idle, []⟩ := by
    refine Run.tail (a := .recv m.length) (.tail (a := .readable) .refl trivial rfl) ?_ ?_
    · rintro buffer ⟨⟩
      exact hroom
    · have hall : 0 < m.length ∧ m.length ≤ Recv_Tempbuff := ⟨by omega, show m.length ≤ 65535 by omega⟩
      simp [SwitchRecv.step, SwitchRecv.start, hwrite, hall]
  have hpeeked : Run SwitchRecv.step KeepsBuffer (SwitchRecv.start m)
      ⟨[], some full, 0, false, .reading m.length (supported m), []⟩ := by
    refine .tail (a := .msg_process) (.tail (a := .msg_process) (.tail (a := .push_MsgAndEvent) hrecv trivial rfl)
      trivial rfl) trivial ?_
    simp [SwitchRecv.step, msg_process, CLoopBuffer.buffer_read, hpeek, hheader, hannounced, hcheck, supported]
  have htaken : Run SwitchRecv.step KeepsBuffer (SwitchRecv.start m)
      ⟨[], some empty, 0, false, .peeking, if supported m then [m] else []⟩ := by
    refine hpeeked.tail (a := .msg_process) trivial ?_
    simp [SwitchRecv.step, msg_process, CLoopBuffer.buffer_read, hread]
  refine ⟨⟨[], some empty, 0, false, .idle, if supported m then [m] else []⟩,
    htaken.tail (a := .msg_process) trivial ?_, ⟨rfl, rfl, rfl⟩, rfl⟩
  simp [SwitchRecv.step, msg_process, CLoopBuffer.buffer_read, CLoopBuffer.read_short hshort]

def echoReply : List UINT1 := [4, 3, 0, 8, 0, 0, 0, 0]

theorem echoReply_message : ofpFramer.Message echoReply := ⟨by decide, by decide⟩

theorem echoReply_delivered : ∃ s, Run SwitchRecv.step KeepsBuffer (SwitchRecv.start [echoReply].flatten) s ∧
    s.processed = [echoReply] := by
  obtain ⟨s, hrun, hquiet, hpending⟩ := message_taken echoReply_message
  have hdelivers := recv_buffer_delivers (fun m hm => List.mem_singleton.mp hm ▸ echoReply_message) hrun
  exact ⟨s, hrun, hdelivers.complete hquiet hpending⟩

/-- Received byte by byte, with no event handled, the bytes fill a block that grows by 1 KB at a time. -/
theorem bytes_received (stream : List UINT1) (n : ℕ) (hn : n + 1024 ≤ 2 ^ 32) (hstream : n ≤ stream.length) :
    ∃ buffer, buffer.Valid ∧ buffer.m_curLen = n ∧ buffer.m_totalLen = max 102400 (1024 * ((n + 1023) / 1024)) ∧
      Reaches SwitchRecv.step (SwitchRecv.start stream) ⟨stream.drop n, some buffer, 0, true, .idle, []⟩ := by
  induction n with
  | zero =>
    refine ⟨CLoopBuffer.ofSize SW_DEFAULT_RECV_BUFFER_LENGTH, CLoopBuffer.Valid.ofSize (by decide), rfl, rfl, ?_⟩
    exact .tail (a := .readable) .refl trivial rfl
  | succ n ih =>
    obtain ⟨buffer, hvalid, hcur, htotal, hrun⟩ := ih (by omega) (by omega)
    have hone : ((stream.drop n).take 1).length = 1 := by
      rw [List.length_take, List.length_drop]
      omega
    have hroom : buffer.HasRoom ((stream.drop n).take 1).length := by
      rw [hone, CLoopBuffer.HasRoom, hcur, htotal]
      omega
    obtain ⟨buffer', hwrite, hvalid', hcontents, htotal'⟩ := hvalid.buffer_write_spec hroom
    refine ⟨buffer', hvalid', ?_, ?_, hrun.tail (a := .recv 1) trivial ?_⟩
    · rw [← hvalid'.contents_length, hcontents, List.length_append, hvalid.contents_length, hone, hcur]
    · rw [htotal', hone, CLoopBuffer.grownLen, hcur, htotal]
      split <;> omega
    · have hleft : 1 ≤ stream.length - n := by omega
      simp [SwitchRecv.step, hwrite, hleft, Recv_Tempbuff, List.drop_drop]

/-- When 4 GB less 1 KB wait in the buffer the next byte makes the size of its block wrap. -/
theorem full_buffer_wraps : ¬ ∀ (msgs : List (List UINT1)) (s : SwitchRecv), (∀ m ∈ msgs, ofpFramer.Message m) →
    Reaches SwitchRecv.step (SwitchRecv.start msgs.flatten) s → Delivers msgs s := by
  intro h
  have hmsgs : ∀ m ∈ List.replicate (2 ^ 29) echoReply, ofpFramer.Message m := by
    intro m hm
    rw [List.eq_of_mem_replicate hm]
    exact echoReply_message
  have hlength : (List.replicate (2 ^ 29) echoReply).flatten.length = 2 ^ 32 := by
    rw [List.length_flatten, List.map_replicate, List.sum_replicate]
    rfl
  obtain ⟨buffer, hvalid, hcur, htotal, hrun⟩ :=
    bytes_received (List.replicate (2 ^ 29) echoReply).flatten (2 ^ 32 - 1024) (by omega) (by omega)
  obtain ⟨x, rest, hrest⟩ : ∃ x rest, (List.replicate (2 ^ 29) echoReply).flatten.drop (2 ^ 32 - 1024) = x :: rest := by
    refine List.exists_cons_of_ne_nil (List.ne_nil_of_length_pos ?_)
    rw [List.length_drop]
    omega
  have hwraps : buffer.buffer_write [x] = none := by
    refine hvalid.buffer_write_wraps ?_ ?_ x
    · rw [hcur, htotal]
      rfl
    · rw [htotal]
      rfl
  rw [hrest] at hrun
  have hnext : Reaches SwitchRecv.step (SwitchRecv.start (List.replicate (2 ^ 29) echoReply).flatten)
      ⟨rest, none, 0, true, .idle, []⟩ := by
    refine hrun.tail (a := .recv 1) trivial ?_
    simp [SwitchRecv.step, hwraps, Recv_Tempbuff]
  obtain ⟨buffer', before, after, hsome, -⟩ := (h _ _ hmsgs hnext).handled
  cases hsome

end SwitchRecv

end DCFabric
