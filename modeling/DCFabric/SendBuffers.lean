import DCFabric.BncTypes
import DCFabric.RingView
import DCFabric.TransitionRuns

namespace DCFabric

open TransitionRuns RingView

def g_sendbuf_len : ℕ := 81920

inductive SendMsgType where
  | CONNECTED
  | WAITCLOSE
deriving DecidableEq

inductive WriteErrno where
  | EAGAIN
  | EINTR
  | other

/-- Where `msg_send_thread` is: at `Read_Event`, before it takes a message from the queue, with a message for a switch
in hand, and in the loop of writes, where it holds the mutex of the switch's buffer. -/
inductive SendPlace (σ : Type) where
  | waiting
  | popping
  | testing (sw : σ)
  | writing (sw : σ) (iWriteLen : ℕ)
deriving DecidableEq

/-- The send buffer of a switch; and the bytes of the packets that were put into it and of the writes, and whether a
write failed for good. -/
structure SendSwitch where
  send_buffer : List UINT1
  send_len : ℕ
  accepted : List UINT1
  written : List UINT1
  failed : Bool

/-- The buffers, the send thread with its queue and the count of its semaphore; and the calls of `send_packet` that
still have to queue their message and those that still have to post it. -/
structure SendThread (σ : Type) where
  switches : σ → SendSwitch
  g_tSend_queue : List (SendMsgType × σ)
  semEvent : ℕ
  place : SendPlace σ
  pushing : List σ
  posting : ℕ

/-- A call of `write` returns the number of bytes, or nothing with an error. -/
inductive SendStep (σ : Type) where
  | send_packet (sw : σ) (pBuf : List UINT1)
  | push_MsgSock_into_queue (sw : σ) (data : Bool)
  | push_wait_close (sw : σ)
  | Write_Event
  | thread
  | write (iRet : ℕ) (iErrno : WriteErrno)

/-- `memcpy` within one buffer, from `src` to `dst`: what the library promises where the two do not overlap. -/
def CopiesApart (memcpy : List UINT1 → (dst src n : ℕ) → List UINT1) : Prop :=
  ∀ buffer dst src n, dst + n ≤ src → src + n ≤ buffer.length →
    memcpy buffer dst src n = splice buffer dst ((buffer.drop src).take n)

namespace SendSwitch

/-- The rest of a buffer can be moved: what goes to the front does not reach the place it comes from. -/
def Movable (sw : SendSwitch) (iWriteLen : ℕ) : Prop := iWriteLen = 0 ∨ sw.send_len - iWriteLen ≤ iWriteLen

def held (sw : SendSwitch) : List UINT1 := sw.send_buffer.take sw.send_len

/-- `send_packet` under the mutex. -/
def put (sw : SendSwitch) (pBuf : List UINT1) : Option SendSwitch :=
  if sw.send_len + pBuf.length > g_sendbuf_len then none
  else some { sw with
    send_buffer := splice sw.send_buffer sw.send_len pBuf
    send_len := sw.send_len + pBuf.length
    accepted := sw.accepted ++ pBuf }

/-- What is left comes to the front. -/
def shift (memcpy : List UINT1 → (dst src n : ℕ) → List UINT1) (sw : SendSwitch) (iWriteLen : ℕ) : SendSwitch :=
  if iWriteLen > 0 then
    if sw.send_len - iWriteLen > 0 then
      { sw with
        send_len := sw.send_len - iWriteLen
        send_buffer := memcpy sw.send_buffer 0 iWriteLen (sw.send_len - iWriteLen) }
    else { sw with send_len := sw.send_len - iWriteLen }
  else sw

/-- The bytes up to `iWriteLen` are written, the rest of what is held is still to come. -/
structure Kept (sw : SendSwitch) (iWriteLen : ℕ) : Prop where
  buffer : sw.send_buffer.length = g_sendbuf_len
  bounded : sw.send_len ≤ g_sendbuf_len
  done : iWriteLen ≤ sw.send_len
  bytes : sw.written ++ sw.held.drop iWriteLen = sw.accepted

variable {memcpy : List UINT1 → (dst src n : ℕ) → List UINT1} {sw sw' : SendSwitch} {iWriteLen iRet : ℕ}

theorem Kept.held_length (hs : sw.Kept iWriteLen) : sw.held.length = sw.send_len := by
  have hb := hs.buffer
  have hl := hs.bounded
  rw [held, List.length_take]
  omega

theorem Kept.put {pBuf : List UINT1} (hs : sw.Kept 0) (hput : sw.put pBuf = some sw') :
    sw'.Kept 0 ∧ sw'.failed = sw.failed := by
  unfold SendSwitch.put at hput
  obtain ⟨hfits, hput⟩ := Option.ite_none_left_eq_some.mp hput
  obtain rfl := Option.some.inj hput
  have hb := hs.buffer
  have hl := hs.bounded
  refine ⟨⟨?_, by simpa using hfits, Nat.zero_le _, ?_⟩, rfl⟩
  · exact (splice_length _ _ _ (by omega)).trans hb
  · have hheld : (splice sw.send_buffer sw.send_len pBuf).take (sw.send_len + pBuf.length) = sw.held ++ pBuf :=
      splice_take (by omega)
    have hbytes := hs.bytes
    rw [List.drop_zero] at hbytes
    rw [held, List.drop_zero, hheld, ← List.append_assoc, hbytes]

theorem Kept.write (hs : sw.Kept iWriteLen) (hfits : iWriteLen + iRet ≤ sw.send_len) :
    Kept { sw with written := sw.written ++ (sw.held.drop iWriteLen).take iRet } (iWriteLen + iRet) := by
  refine { hs with done := hfits, bytes := ?_ }
  have hrest : (sw.held.drop iWriteLen).take iRet ++ sw.held.drop (iWriteLen + iRet) = sw.held.drop iWriteLen := by
    rw [← List.drop_drop, List.take_append_drop]
  have hbytes := hs.bytes
  rw [← hrest, ← List.append_assoc] at hbytes
  exact hbytes

theorem Kept.shift (hcopy : CopiesApart memcpy) (hs : sw.Kept iWriteLen) (hmove : sw.Movable iWriteLen) :
    (sw.shift memcpy iWriteLen).Kept 0 ∧ (sw.shift memcpy iWriteLen).send_len = sw.send_len - iWriteLen ∧
      (sw.shift memcpy iWriteLen).failed = sw.failed := by
  have hb := hs.buffer
  have hl := hs.bounded
  have hd := hs.done
  have hdrop : (sw.send_buffer.drop iWriteLen).take (sw.send_len - iWriteLen) = sw.held.drop iWriteLen :=
    (List.drop_take ..).symm
  have hlength : (sw.held.drop iWriteLen).length = sw.send_len - iWriteLen := by
    rw [List.length_drop, hs.held_length]
  unfold SendSwitch.shift
  split_ifs with hw hrest
  · have hcopied := hcopy sw.send_buffer 0 iWriteLen (sw.send_len - iWriteLen)
      (by rcases hmove with h | h <;> omega) (by omega)
    rw [hdrop] at hcopied
    refine ⟨⟨?_, ?_, Nat.zero_le _, ?_⟩, rfl, rfl⟩
    · rw [hcopied, splice_length _ _ _ (by omega), hb]
    · exact (Nat.sub_le _ _).trans hl
    · have hheld : (splice sw.send_buffer 0 (sw.held.drop iWriteLen)).take (sw.send_len - iWriteLen) =
          sw.held.drop iWriteLen := by
        have htake : (splice sw.send_buffer 0 (sw.held.drop iWriteLen)).take (0 + (sw.held.drop iWriteLen).length) =
            sw.send_buffer.take 0 ++ sw.held.drop iWriteLen := splice_take (Nat.zero_le _)
        rwa [Nat.zero_add, hlength] at htake
      rw [held, hcopied, hheld]
      exact hs.bytes
  · have hall : sw.send_len - iWriteLen = 0 := by omega
    refine ⟨⟨hb, (Nat.sub_le _ _).trans hl, Nat.zero_le _, ?_⟩, rfl, rfl⟩
    have hbytes := hs.bytes
    rw [List.drop_of_length_le (by rw [hs.held_length]; omega)] at hbytes
    simpa only [held, hall, List.take_zero, List.drop_nil] using hbytes
  · obtain rfl : iWriteLen = 0 := by omega
    exact ⟨hs, rfl, rfl⟩

end SendSwitch

namespace SendThread

variable {σ : Type} [DecidableEq σ] (memcpy : List UINT1 → (dst src n : ℕ) → List UINT1)

def set (s : SendThread σ) (sw : σ) (fields : SendSwitch) : SendThread σ :=
  { s with switches := Function.update s.switches sw fields }

/-- The loop of writes is left and the mutex released. -/
def finish (s : SendThread σ) (sw : σ) (iWriteLen : ℕ) : SendThread σ :=
  { s.set sw ((s.switches sw).shift memcpy iWriteLen) with place := .popping }

def locked (s : SendThread σ) (sw : σ) : Bool :=
  match s.place with
  | .writing holder _ => holder = sw
  | _ => false

def msg_send_thread (s : SendThread σ) : Option (SendThread σ) :=
  match s.place with
  | .waiting => if s.semEvent = 0 then none else some { s with semEvent := s.semEvent - 1, place := .popping }
  | .popping =>
    match s.g_tSend_queue with
    | [] => some { s with place := .waiting }
    | (.CONNECTED, sw) :: rest => some { s with g_tSend_queue := rest, place := .testing sw }
    | (.WAITCLOSE, _) :: rest => some { s with g_tSend_queue := rest }
  | .testing sw => some { s with place := if (s.switches sw).send_len = 0 then .popping else .writing sw 0 }
  | .writing sw iWriteLen => if iWriteLen < (s.switches sw).send_len then none else some (s.finish memcpy sw iWriteLen)

def write (s : SendThread σ) (iRet : ℕ) (iErrno : WriteErrno) : Option (SendThread σ) :=
  match s.place with
  | .writing sw iWriteLen =>
    if iWriteLen + iRet ≤ (s.switches sw).send_len ∧ iWriteLen < (s.switches sw).send_len then
      if iRet = 0 then
        match iErrno with
        | .EAGAIN => some (s.finish memcpy sw iWriteLen)
        | .EINTR => some s
        | .other => some ((s.set sw { s.switches sw with failed := true }).finish memcpy sw iWriteLen)
      else
        some { s.set sw { s.switches sw with
            written := (s.switches sw).written ++ ((s.switches sw).held.drop iWriteLen).take iRet } with
          place := .writing sw (iWriteLen + iRet) }
    else none
  | _ => none

/-- A message is lost where the pool has no place for its data. -/
def step (s : SendThread σ) : SendStep σ → Option (SendThread σ)
  | .send_packet sw pBuf =>
    if s.locked sw then none
    else some (((s.switches sw).put pBuf).elim s fun fields => { s.set sw fields with pushing := sw :: s.pushing })
  | .push_MsgSock_into_queue sw data =>
    if sw ∈ s.pushing then
      if data then
        some { s with
          pushing := s.pushing.erase sw
          g_tSend_queue := s.g_tSend_queue ++ [(.CONNECTED, sw)]
          posting := s.posting + 1 }
      else some { s with pushing := s.pushing.erase sw }
    else none
  | .push_wait_close sw =>
    some { s with g_tSend_queue := s.g_tSend_queue ++ [(.WAITCLOSE, sw)], posting := s.posting + 1 }
  | .Write_Event =>
    if s.posting = 0 then none else some { s with posting := s.posting - 1, semEvent := s.semEvent + 1 }
  | .thread => s.msg_send_thread memcpy
  | .write iRet iErrno => s.write memcpy iRet iErrno

/-- Nothing was sent, and each buffer has its size. -/
structure Fresh (s : SendThread σ) : Prop where
  buffer : ∀ sw, (s.switches sw).send_buffer.length = g_sendbuf_len
  empty : ∀ sw, (s.switches sw).send_len = 0
  accepted : ∀ sw, (s.switches sw).accepted = []
  written : ∀ sw, (s.switches sw).written = []
  queue : s.g_tSend_queue = []
  place : s.place = .waiting
  posting : s.posting = 0

/-- A message for the switch is in the queue or comes into it. -/
def awaited (s : SendThread σ) (sw : σ) : Prop := (.CONNECTED, sw) ∈ s.g_tSend_queue ∨ sw ∈ s.pushing

def inHand (s : SendThread σ) (sw : σ) : Bool :=
  match s.place with
  | .waiting | .popping => false
  | .testing holder | .writing holder _ => holder = sw

/-- What the socket got is the beginning of the accepted bytes, no buffer holds more than its size, and nothing is left
where the thread waits and no message comes; and where a message is in the queue and posted the thread does not wait. -/
structure Sent (s : SendThread σ) : Prop where
  inOrder : ∀ sw, (s.switches sw).written <+: (s.switches sw).accepted
  bounded : ∀ sw, (s.switches sw).send_len ≤ g_sendbuf_len
  nothingLeft : s.place = .waiting → ∀ sw, (s.switches sw).failed = false → ¬ s.awaited sw →
    (s.switches sw).send_len = 0
  posted : s.place = .waiting → s.g_tSend_queue ≠ [] → s.posting = 0 → 0 < s.semEvent

def MayFail (s : SendThread σ) : SendPlace σ → WriteErrno → Prop
  | .writing sw iWriteLen, .EAGAIN => s.awaited sw ∧ (s.switches sw).Movable iWriteLen
  | .writing sw iWriteLen, .other => (s.switches sw).Movable iWriteLen
  | _, _ => True

/-- A write that would block comes only while a further message for the switch is still to be handled, what remains of
a loop of writes can be moved, and no message with bytes of its own is lost. -/
def KeepsSending (s : SendThread σ) : SendStep σ → Prop
  | .push_MsgSock_into_queue sw data =>
    data ∨ (.CONNECTED, sw) ∈ s.g_tSend_queue ∨ sw ∈ s.pushing.erase sw ∨ s.inHand sw ∨ (s.switches sw).send_len = 0
  | .write iRet iErrno => iRet = 0 → s.MayFail s.place iErrno
  | _ => True

/-- The bytes of the switch that the thread has written from its buffer. -/
def done (s : SendThread σ) (sw : σ) : ℕ :=
  match s.place with
  | .writing holder iWriteLen => if holder = sw then iWriteLen else 0
  | _ => 0

structure Inv (s : SendThread σ) : Prop where
  kept : ∀ sw, (s.switches sw).Kept (s.done sw)
  served : ∀ sw, (s.switches sw).failed = false → (s.switches sw).send_len ≠ 0 → s.awaited sw ∨ s.inHand sw = true
  posted : s.place = .waiting → s.g_tSend_queue ≠ [] → 0 < s.posting + s.semEvent

variable {memcpy} {s s' : SendThread σ}

theorem Fresh.inv (hs : s.Fresh) : s.Inv where
  kept sw := by
    have hdone : s.done sw = 0 := by rw [done, hs.place]
    refine ⟨hs.buffer sw, ?_, ?_, ?_⟩
    · rw [hs.empty]
      exact Nat.zero_le _
    · rw [hdone]
      exact Nat.zero_le _
    · simp [SendSwitch.held, hs.empty, hs.accepted, hs.written]
  served sw _ h := absurd (hs.empty sw) h
  posted _ h := absurd hs.queue h

theorem Inv.sent (hs : s.Inv) : s.Sent where
  inOrder sw := ⟨_, (hs.kept sw).bytes⟩
  bounded sw := (hs.kept sw).bounded
  nothingLeft hwait sw hfailed hawaited := by
    by_contra hlen
    rcases hs.served sw hfailed hlen with h | h
    · exact hawaited h
    · rw [inHand, hwait] at h
      cases h
  posted hwait hqueue hposting := by
    have h := hs.posted hwait hqueue
    omega

/-- A step that leaves the buffers as they are. -/
theorem Inv.of_same {t : SendThread σ} (hs : s.Inv) (hswitches : t.switches = s.switches)
    (hdone : ∀ x, t.done x = s.done x)
    (hserved : ∀ x, (s.switches x).send_len ≠ 0 → s.awaited x ∨ s.inHand x = true → t.awaited x ∨ t.inHand x = true)
    (hposted : t.place = .waiting → t.g_tSend_queue ≠ [] → 0 < t.posting + t.semEvent) : t.Inv where
  kept x := by
    rw [hswitches, hdone]
    exact hs.kept x
  served x hfailed hlen := by
    rw [hswitches] at hfailed hlen
    exact hserved x hlen (hs.served x hfailed hlen)
  posted := hposted

/-- A step that changes one buffer. -/
theorem Inv.of_set {t : SendThread σ} {sw : σ} {fields : SendSwitch} (hs : s.Inv)
    (hswitches : t.switches = Function.update s.switches sw fields) (hdone : ∀ x ≠ sw, t.done x = s.done x)
    (hkept : fields.Kept (t.done sw))
    (hsw : fields.failed = false → fields.send_len ≠ 0 → t.awaited sw ∨ t.inHand sw = true)
    (hserved : ∀ x ≠ sw, s.awaited x ∨ s.inHand x = true → t.awaited x ∨ t.inHand x = true)
    (hposted : t.place = .waiting → t.g_tSend_queue ≠ [] → 0 < t.posting + t.semEvent) : t.Inv where
  kept x := by
    rw [hswitches]
    by_cases hx : x = sw
    · subst hx
      rw [Function.update_self]
      exact hkept
    · rw [Function.update_of_ne hx, hdone x hx]
      exact hs.kept x
  served x hfailed hlen := by
    rw [hswitches] at hfailed hlen
    by_cases hx : x = sw
    · subst hx
      rw [Function.update_self] at hfailed hlen
      exact hsw hfailed hlen
    · rw [Function.update_of_ne hx] at hfailed hlen
      exact hserved x hx (hs.served x hfailed hlen)
  posted := hposted

theorem done_of_not_locked {sw : σ} (hlocked : s.locked sw = false) : s.done sw = 0 := by
  unfold locked at hlocked
  unfold done
  split at hlocked
  · next holder w hplace =>
    simp only [decide_eq_false_iff_not] at hlocked
    exact if_neg hlocked
  · rfl

theorem Inv.send_packet (hs : s.Inv) {sw : σ} {pBuf : List UINT1}
    (he : s.step memcpy (.send_packet sw pBuf) = some s') : s'.Inv := by
  obtain ⟨hlocked, he⟩ := Option.ite_none_left_eq_some.mp he
  obtain rfl := Option.some.inj he
  cases hput : (s.switches sw).put pBuf with
  | none => exact hs
  | some fields =>
    have hdone : s.done sw = 0 := done_of_not_locked (by simpa using hlocked)
    obtain ⟨hkept, -⟩ := (hdone ▸ hs.kept sw).put hput
    rw [Option.elim_some]
    refine hs.of_set rfl (fun _ _ => rfl) (hdone ▸ hkept) ?_ ?_ hs.posted
    · exact fun _ _ => .inl (.inr List.mem_cons_self)
    · exact fun x _ h => h.imp_left fun h => h.imp_right fun h => List.mem_cons_of_mem _ h

theorem Inv.push (hs : s.Inv) {sw : σ} {data : Bool}
    (hk : s.KeepsSending (.push_MsgSock_into_queue sw data))
    (he : s.step memcpy (.push_MsgSock_into_queue sw data) = some s') : s'.Inv := by
  obtain ⟨hpushing, he⟩ := Option.ite_none_right_eq_some.mp he
  have hother : ∀ x ≠ sw, x ∈ s.pushing → x ∈ s.pushing.erase sw :=
    fun x hx h => (List.mem_erase_of_ne hx).mpr h
  cases data with
  | true =>
    obtain rfl := Option.some.inj he
    refine hs.of_same rfl (fun _ => rfl) ?_ (fun _ _ => by dsimp only; omega)
    intro x _ h
    by_cases hx : x = sw
    · subst hx
      exact .inl (.inl (List.mem_append_right _ List.mem_cons_self))
    · exact h.imp_left fun h => h.imp (fun h => List.mem_append_left _ h) (hother x hx)
  | false =>
    obtain rfl := Option.some.inj he
    refine hs.of_same rfl (fun _ => rfl) ?_ hs.posted
    intro x hlen h
    by_cases hx : x = sw
    · subst hx
      rcases hk with hk | hk | hk | hk | hk
      · cases hk
      · exact .inl (.inl hk)
      · exact .inl (.inr hk)
      · exact .inr hk
      · exact absurd hk hlen
    · exact h.imp_left fun h => h.imp_right (hother x hx)

theorem done_of_writing {sw : σ} {iWriteLen : ℕ} (hplace : s.place = .writing sw iWriteLen) :
    s.done sw = iWriteLen := by
  rw [done, hplace]
  exact if_pos rfl

theorem done_of_ne {sw x : σ} {iWriteLen : ℕ} (hplace : s.place = .writing sw iWriteLen) (hx : x ≠ sw) :
    s.done x = 0 := by
  rw [done, hplace]
  exact if_neg (Ne.symm hx)

theorem not_inHand {sw x : σ} {iWriteLen : ℕ} (hplace : s.place = .writing sw iWriteLen) (hx : x ≠ sw) :
    s.inHand x ≠ true := by
  rw [inHand, hplace]
  simpa using Ne.symm hx

/-- The loop of writes may be left when all is written or failed, or a further message for the switch comes. -/
theorem Inv.finish (hcopy : CopiesApart memcpy) (hs : s.Inv) {sw : σ} {iWriteLen : ℕ}
    (hplace : s.place = .writing sw iWriteLen) (hmove : (s.switches sw).Movable iWriteLen)
    (hrest : (s.switches sw).failed = false → (s.switches sw).send_len - iWriteLen ≠ 0 → s.awaited sw) :
    (s.finish memcpy sw iWriteLen).Inv := by
  have hkept := hs.kept sw
  rw [done_of_writing hplace] at hkept
  obtain ⟨hkept, hlen, hfailed⟩ := hkept.shift hcopy hmove
  refine hs.of_set rfl (fun x hx => (done_of_ne hplace hx).symm) hkept ?_ ?_ (fun h => by cases h)
  · intro hf hl
    rw [hfailed] at hf
    rw [hlen] at hl
    exact .inl (hrest hf hl)
  · intro x hx h
    exact .inl (h.resolve_right (not_inHand hplace hx))

theorem Inv.fail (hs : s.Inv) (sw : σ) : (s.set sw { s.switches sw with failed := true }).Inv :=
  hs.of_set rfl (fun _ _ => rfl) { hs.kept sw with } (fun h => by cases h) (fun _ _ h => h) hs.posted

theorem Inv.write (hcopy : CopiesApart memcpy) (hs : s.Inv) {iRet : ℕ} {iErrno : WriteErrno}
    (hk : s.KeepsSending (.write iRet iErrno)) (he : s.write memcpy iRet iErrno = some s') : s'.Inv := by
  unfold SendThread.write at he
  split at he
  · next sw iWriteLen hplace =>
    obtain ⟨⟨hfits, hleft⟩, he⟩ := Option.ite_none_right_eq_some.mp he
    have hkept := hs.kept sw
    rw [done_of_writing hplace] at hkept
    split_ifs at he with hret
    · have hk := hk hret
      rw [hplace] at hk
      cases iErrno with
      | EAGAIN =>
        obtain rfl := Option.some.inj he
        exact hs.finish hcopy hplace hk.2 fun _ _ => hk.1
      | EINTR =>
        obtain rfl := Option.some.inj he
        exact hs
      | other =>
        obtain rfl := Option.some.inj he
        refine (hs.fail sw).finish hcopy hplace ?_ ?_
        · simpa [SendThread.set, SendSwitch.Movable, MayFail] using hk
        · simp [SendThread.set]
    · obtain rfl := Option.some.inj he
      refine hs.of_set rfl ?_ ?_ (fun _ _ => .inr ?_) ?_ (fun h => by cases h)
      · intro x hx
        rw [done_of_ne hplace hx]
        exact if_neg (Ne.symm hx)
      · show SendSwitch.Kept _ (if sw = sw then iWriteLen + iRet else 0)
        rw [if_pos rfl]
        exact hkept.write hfits
      · exact decide_eq_true rfl
      · intro x hx h
        exact .inl (h.resolve_right (not_inHand hplace hx))
  · cases he

theorem Inv.thread (hcopy : CopiesApart memcpy) (hs : s.Inv) (he : s.msg_send_thread memcpy = some s') : s'.Inv := by
  unfold msg_send_thread at he
  split at he
  · next hplace =>
    obtain ⟨-, he⟩ := Option.ite_none_left_eq_some.mp he
    obtain rfl := Option.some.inj he
    refine hs.of_same rfl (fun x => ?_) (fun x _ h => ?_) (fun h => by cases h)
    · simp only [done, hplace]
    · refine h.imp_right fun h => ?_
      rwa [inHand, hplace] at h
  · next hplace =>
    split at he
    · next hqueue =>
      obtain rfl := Option.some.inj he
      refine hs.of_same rfl (fun x => ?_) (fun x _ h => ?_) (fun _ h => absurd hqueue h)
      · simp only [done, hplace]
      · refine h.imp_right fun h => ?_
        rwa [inHand, hplace] at h
    · next sw rest hqueue =>
      obtain rfl := Option.some.inj he
      refine hs.of_same rfl (fun x => ?_) (fun x _ h => ?_) (fun h => by cases h)
      · simp only [done, hplace]
      · rcases h with (h | h) | h
        · rw [hqueue] at h
          rcases List.mem_cons.mp h with h | h
          · obtain rfl : x = sw := congrArg Prod.snd h
            exact .inr (decide_eq_true rfl)
          · exact .inl (.inl h)
        · exact .inl (.inr h)
        · rw [inHand, hplace] at h
          cases h
    · next sw rest hqueue =>
      obtain rfl := Option.some.inj he
      refine hs.of_same rfl (fun x => ?_) (fun x _ h => ?_) (fun h => absurd (hplace.symm.trans h) nofun)
      · simp only [done, hplace]
      · rcases h with (h | h) | h
        · rw [hqueue] at h
          rcases List.mem_cons.mp h with h | h
          · cases h
          · exact .inl (.inl h)
        · exact .inl (.inr h)
        · exact .inr h
  · next sw hplace =>
    obtain rfl := Option.some.inj he
    split_ifs with hempty
    · refine hs.of_same rfl (fun x => ?_) (fun x hlen h => ?_) (fun h => by cases h)
      · simp only [done, hplace]
      · rcases h with h | h
        · exact .inl h
        · rw [inHand, hplace] at h
          obtain rfl : sw = x := of_decide_eq_true h
          exact absurd hempty hlen
    · refine hs.of_same rfl (fun x => ?_) (fun x hlen h => ?_) (fun h => by cases h)
      · simp only [done, hplace, ite_self]
      · refine h.imp_right fun h => ?_
        rwa [inHand, hplace] at h
  · next sw iWriteLen hplace =>
    obtain ⟨hleft, he⟩ := Option.ite_none_left_eq_some.mp he
    obtain rfl := Option.some.inj he
    refine hs.finish hcopy hplace ?_ ?_
    · rw [SendSwitch.Movable]
      omega
    · omega

theorem Inv.step (hcopy : CopiesApart memcpy) (hs : s.Inv) {e : SendStep σ} (hk : s.KeepsSending e)
    (he : s.step memcpy e = some s') : s'.Inv := by
  cases e with
  | send_packet sw pBuf => exact hs.send_packet he
  | push_MsgSock_into_queue sw data => exact hs.push hk he
  | push_wait_close sw =>
    obtain rfl := Option.some.inj he
    refine hs.of_same rfl (fun _ => rfl) (fun x _ h => ?_) (fun _ _ => by dsimp only; omega)
    exact h.imp_left fun h => h.imp_left fun h => List.mem_append_left _ h
  | Write_Event =>
    obtain ⟨hposting, he⟩ := Option.ite_none_left_eq_some.mp he
    obtain rfl := Option.some.inj he
    refine hs.of_same rfl (fun _ => rfl) (fun _ _ h => h) (fun _ _ => by dsimp only; omega)
  | thread => exact hs.thread hcopy he
  | write iRet iErrno => exact hs.write hcopy hk he

theorem shift_send_len (sw : SendSwitch) (iWriteLen : ℕ) :
    (sw.shift memcpy iWriteLen).send_len = sw.send_len - iWriteLen := by
  unfold SendSwitch.shift
  split_ifs with hw
  · rfl
  · rfl
  · omega

/-- As long as every step meets the condition nothing is left in a buffer without a message; and after a write that
would block, with no further message for the switch, something is. -/
theorem send_buffers_kept (hcopy : CopiesApart memcpy) {start : SendThread σ} (hstart : start.Fresh)
    (h : Run (SendThread.step memcpy) KeepsSending start s) :
    s.Sent ∧ ∀ sw iWriteLen s', s.place = .writing sw iWriteLen → s.step memcpy (.write 0 .EAGAIN) = some s' →
      ¬ s.awaited sw → (s'.switches sw).send_len ≠ 0 ∧ ¬ s'.awaited sw ∧ s'.place = .popping := by
  refine ⟨(h.invariant (fun _ _ _ ht hk he => ht.step hcopy hk he) hstart.inv).sent, ?_⟩
  intro sw iWriteLen s' hplace he hawaited
  simp only [SendThread.step, SendThread.write, hplace] at he
  obtain ⟨⟨-, hleft⟩, he⟩ := Option.ite_none_right_eq_some.mp he
  obtain rfl := Option.some.inj he
  refine ⟨?_, hawaited, rfl⟩
  rw [finish, SendThread.set]
  simp only [Function.update_self, shift_send_len]
  omega

/-- A copy that is right for overlapping places too. -/
def memmove (buffer : List UINT1) (dst src n : ℕ) : List UINT1 := splice buffer dst ((buffer.drop src).take n)

theorem memmove_apart : CopiesApart memmove := fun _ _ _ _ _ _ => rfl

def idle : SendThread Unit :=
  ⟨fun _ => ⟨List.replicate g_sendbuf_len 0, 0, [], [], false⟩, [], 0, .waiting, [], 0⟩

theorem idle_fresh : idle.Fresh :=
  ⟨fun _ => List.length_replicate, fun _ => rfl, fun _ => rfl, fun _ => rfl, rfl, rfl, rfl⟩

instance (s : SendThread σ) (sw : σ) : Decidable (s.awaited sw) := inferInstanceAs (Decidable (_ ∨ _))

instance (sw : SendSwitch) (iWriteLen : ℕ) : Decidable (sw.Movable iWriteLen) := inferInstanceAs (Decidable (_ ∨ _))

instance (s : SendThread σ) : ∀ place iErrno, Decidable (s.MayFail place iErrno)
  | .writing _ _, .EAGAIN => inferInstanceAs (Decidable (_ ∧ _))
  | .writing sw iWriteLen, .other => inferInstanceAs (Decidable ((s.switches sw).Movable iWriteLen))
  | .writing _ _, .EINTR | .waiting, _ | .popping, _ | .testing _, _ => inferInstanceAs (Decidable True)

instance (s : SendThread σ) : ∀ e, Decidable (s.KeepsSending e)
  | .push_MsgSock_into_queue _ _ => inferInstanceAs (Decidable (_ ∨ _))
  | .write _ _ => inferInstanceAs (Decidable (_ → _))
  | .send_packet _ _ | .push_wait_close _ | .Write_Event | .thread => inferInstanceAs (Decidable True)

/-- A packet of two bytes up to the loop of writes. -/
def packetRun : List (SendStep Unit) :=
  [.send_packet () [1, 2], .push_MsgSock_into_queue () true, .Write_Event, .thread, .thread, .thread]

/-- Two packets that go out in three writes. -/
theorem two_packets_sent : ∃ s, exec (guarded (SendThread.step memmove) KeepsSending) idle
    (packetRun ++ [.write 1 .other, .write 0 .EINTR, .write 1 .other, .thread, .send_packet () [3],
      .push_MsgSock_into_queue () true, .Write_Event, .thread, .thread, .write 1 .other, .thread, .thread]) = some s ∧
    (s.switches ()).written = [1, 2, 3] ∧ s.Sent := by
  have hexec : exec (guarded (SendThread.step memmove) KeepsSending) idle
    (packetRun ++ [.write 1 .other, .write 0 .EINTR, .write 1 .other, .thread, .send_packet () [3],
      .push_MsgSock_into_queue () true, .Write_Event, .thread, .thread, .write 1 .other, .thread, .thread]) =
    some _ := rfl
  exact ⟨_, hexec, by decide, (send_buffers_kept memmove_apart idle_fresh (Run.of_exec hexec)).1⟩

/-- The second byte stays when its write would block and no packet comes. -/
theorem blocked_byte_left : ¬ ∀ (memcpy : List UINT1 → (dst src n : ℕ) → List UINT1) (start s : SendThread Unit),
    CopiesApart memcpy → start.Fresh → Reaches (SendThread.step memcpy) start s → s.Sent := by
  intro h
  have hexec : exec (SendThread.step memmove) idle
    (packetRun ++ [.write 1 .other, .write 0 .EAGAIN, .thread]) = some _ := rfl
  have hleft := (h memmove idle _ memmove_apart idle_fresh (Reaches.of_exec hexec)).nothingLeft rfl () rfl
    (of_decide_eq_false rfl)
  exact absurd hleft (by decide)

end SendThread

end DCFabric
