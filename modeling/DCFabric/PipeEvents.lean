import DCFabric.BncTypes
import DCFabric.TransitionRuns

namespace DCFabric.ConnSvr

open TransitionRuns

def PIPEEVENT_QUEUE_NUM : UINT4 := 65535

def ADDSOCK : UINT4 := 1
def DELSOCK : UINT4 := 2
def FREESOCK : UINT4 := 3

/-- The bytes that a pipe holds. -/
def pipeCapacity : ℕ := 65536

/-- An operation on a socket, as `registerEpoll_OpSock` is asked for it. -/
structure OpSock where
  uiOpType : UINT4
  iSockFd : INT4
  funcptr : ℕ
deriving DecidableEq

structure stEvent_SockFd where
  uiUsed : UINT4
  op : OpSock
deriving DecidableEq

/-- Where `pipe_read_func` is: not called, in the loop of its reads, or in `pipe_MsgProc` with passes left. -/
inductive Reader
  | idle
  | reading (uiReadLen : UINT4)
  | processing (left : ℕ)
deriving DecidableEq

/-- The operations whose bytes the reader has taken. -/
def Reader.taken : Reader → ℕ
  | .idle => 0
  | .reading uiReadLen => uiReadLen.toNat
  | .processing left => left

/-- The ring and the pipe, with the threads that have written their entry and not their byte; `registered` are the
operations in the order of their entries, `carried` those that `pipe_MsgProc` has carried out. -/
structure PipeState where
  g_stPipeEvent_SockFdQueue : ℕ → stEvent_SockFd
  g_uiPipeEventWrOffset : UINT4
  g_uiPipeEventRdOffset : UINT4
  pipe : ℕ
  unwritten : ℕ
  reader : Reader
  registered : List OpSock
  carried : List OpSock

inductive PipeStep
  | register (op : OpSock)
  | write
  | read (n : ℕ)
  | drained
  | process

namespace PipeState

def start : PipeState := ⟨fun _ => ⟨0, ⟨0, 0, 0⟩⟩, 0, 0, 0, 0, .idle, [], []⟩

/-- `registerEpoll_OpSock` as far as it holds the mutex. -/
def registerOp (s : PipeState) (op : OpSock) : PipeState :=
  { s with
    g_stPipeEvent_SockFdQueue := Function.update s.g_stPipeEvent_SockFdQueue s.g_uiPipeEventWrOffset.toNat ⟨1, op⟩
    g_uiPipeEventWrOffset := (s.g_uiPipeEventWrOffset + 1) % PIPEEVENT_QUEUE_NUM
    unwritten := s.unwritten + 1
    registered := s.registered ++ [op] }

/-- The `write` of `registerEpoll_OpSock`, whose result is not read. -/
def writeByte (s : PipeState) : Option PipeState :=
  if s.unwritten = 0 then none
  else some { s with
    unwritten := s.unwritten - 1
    pipe := if s.pipe < pipeCapacity then s.pipe + 1 else s.pipe }

/-- A `read` that returns `n` bytes. -/
def readBytes (s : PipeState) (n : ℕ) : Option PipeState :=
  if 0 < n ∧ n ≤ 1024 ∧ n ≤ s.pipe then
    match s.reader with
    | .idle => some { s with pipe := s.pipe - n, reader := .reading (UInt32.ofNat n) }
    | .reading uiReadLen => some { s with pipe := s.pipe - n, reader := .reading (uiReadLen + UInt32.ofNat n) }
    | .processing _ => none
  else none

/-- A `read` that finds the pipe empty. -/
def readEmpty (s : PipeState) : Option PipeState :=
  match s.reader with
  | .reading uiReadLen =>
    if s.pipe = 0 then
      some { s with reader := if uiReadLen > 0 then .processing uiReadLen.toNat else .idle }
    else none
  | _ => none

/-- The types that `pipe_MsgProc` has a case for. -/
def Known (uiMsgType : UINT4) : Prop := uiMsgType = ADDSOCK ∨ uiMsgType = DELSOCK ∨ uiMsgType = FREESOCK

instance (uiMsgType : UINT4) : Decidable (Known uiMsgType) := inferInstanceAs (Decidable (_ ∨ _ ∨ _))

/-- A pass of `pipe_MsgProc`, which returns at a type that it does not know. -/
def processOne (s : PipeState) : Option PipeState :=
  match s.reader with
  | .processing (left + 1) =>
    let uiReadPos := s.g_uiPipeEventRdOffset.toNat
    let entry := s.g_stPipeEvent_SockFdQueue uiReadPos
    let s := { s with
      g_stPipeEvent_SockFdQueue := Function.update s.g_stPipeEvent_SockFdQueue uiReadPos { entry with uiUsed := 0 }
      g_uiPipeEventRdOffset := (s.g_uiPipeEventRdOffset + 1) % PIPEEVENT_QUEUE_NUM }
    if Known entry.op.uiOpType then
      some { s with
        carried := s.carried ++ [entry.op]
        reader := if left = 0 then .idle else .processing left }
    else some { s with reader := .idle }
  | _ => none

def step (s : PipeState) : PipeStep → Option PipeState
  | .register op => some (s.registerOp op)
  | .write => s.writeByte
  | .read n => s.readBytes n
  | .drained => s.readEmpty
  | .process => s.processOne

/-- An operation of a known type is registered while the entry it is written to is not used. -/
def Free (s : PipeState) : PipeStep → Prop
  | .register op => Known op.uiOpType ∧ (s.g_stPipeEvent_SockFdQueue s.g_uiPipeEventWrOffset.toNat).uiUsed = 0
  | _ => True

/-- A step of no new call. -/
def Internal (_ : PipeState) : PipeStep → Prop
  | .register _ => False
  | _ => True

/-- The operations are carried out in the order of their entries, each of the others is still in its entry, and none is
left when every byte is written and read. -/
structure Sound (s : PipeState) : Prop where
  order : s.carried <+: s.registered
  kept : ∀ i op, s.carried.length ≤ i → s.registered[i]? = some op →
    s.g_stPipeEvent_SockFdQueue (i % PIPEEVENT_QUEUE_NUM.toNat) = ⟨1, op⟩
  quiet : s.unwritten = 0 → s.pipe = 0 → s.reader = .idle → s.carried = s.registered

/-- The offsets count the operations that were registered and carried out, and the bytes count those between. -/
structure Inv (s : PipeState) : Prop where
  wr : s.g_uiPipeEventWrOffset.toNat = s.registered.length % 65535
  rd : s.g_uiPipeEventRdOffset.toNat = s.carried.length % 65535
  room : s.registered.length ≤ s.carried.length + 65535
  order : s.carried <+: s.registered
  kept : ∀ i op, s.carried.length ≤ i → s.registered[i]? = some op →
    s.g_stPipeEvent_SockFdQueue (i % 65535) = ⟨1, op⟩
  known : ∀ op ∈ s.registered, Known op.uiOpType
  tokens : s.carried.length + s.unwritten + s.pipe + s.reader.taken = s.registered.length
  busy : s.reader ≠ .idle → 0 < s.reader.taken

variable {s s' : PipeState} {op : OpSock} {e : PipeStep} {n : ℕ}

theorem inv_start : start.Inv where
  wr := rfl
  rd := rfl
  room := Nat.zero_le _
  order := List.prefix_rfl
  kept := fun i op _ hop => by cases hop
  known := fun op hop => absurd hop List.not_mem_nil
  tokens := rfl
  busy := fun hne => absurd rfl hne

theorem Inv.sound (h : s.Inv) : s.Sound where
  order := h.order
  kept := h.kept
  quiet := fun hunwritten hpipe hidle => by
    have htokens := h.tokens
    rw [hunwritten, hpipe, hidle] at htokens
    exact h.order.eq_of_length htokens

theorem next_offset {offset : UINT4} {k : ℕ} (h : offset.toNat = k % 65535) :
    ((offset + 1) % PIPEEVENT_QUEUE_NUM).toNat = (k + 1) % 65535 := by
  have hadd : (offset + 1).toNat = k % 65535 + 1 := by
    have hlt : k % 65535 + 1 < 2 ^ 32 := by omega
    rw [UInt32.toNat_add, h]
    exact Nat.mod_eq_of_lt hlt
  rw [UInt32.toNat_mod, hadd]
  exact Nat.mod_add_mod k 65535 1

/-- An entry that is not used is that of no operation still to be carried out. -/
theorem Inv.length_lt (h : s.Inv) (hfree : (s.g_stPipeEvent_SockFdQueue s.g_uiPipeEventWrOffset.toNat).uiUsed = 0) :
    s.registered.length < s.carried.length + 65535 := by
  by_contra hfull
  have hle := h.order.length_le
  have hlen : s.registered.length = s.carried.length + 65535 := le_antisymm h.room (not_lt.mp hfull)
  obtain ⟨op, hop⟩ : ∃ op, s.registered[s.carried.length]? = some op :=
    ⟨_, List.getElem?_eq_getElem (by omega)⟩
  have hentry := h.kept _ op le_rfl hop
  rw [h.wr, hlen, Nat.add_mod_right, hentry] at hfree
  exact absurd hfree (show (1 : UINT4) ≠ 0 by decide)

theorem Inv.register (h : s.Inv) (hfree : s.Free (.register op)) : (s.registerOp op).Inv := by
  obtain ⟨hknown, hfree⟩ := hfree
  have hlt := h.length_lt hfree
  have hle := h.order.length_le
  have hlen : (s.registered ++ [op]).length = s.registered.length + 1 := List.length_append
  constructor
  · exact (next_offset h.wr).trans (congrArg (· % 65535) hlen.symm)
  · exact h.rd
  · exact hlen.trans_le hlt
  · exact h.order.trans (List.prefix_append ..)
  · intro i op' hi hop
    have hop : (s.registered ++ [op])[i]? = some op' := hop
    change Function.update _ _ _ _ = _
    rw [h.wr]
    obtain hlast | hold := Nat.lt_or_ge i s.registered.length
    · rw [List.getElem?_append_left hlast] at hop
      have hi : s.carried.length ≤ i := hi
      rw [Function.update_of_ne (by omega)]
      exact h.kept i op' hi hop
    · have hi : i < (s.registered ++ [op]).length := (List.getElem?_eq_some_iff.mp hop).1
      obtain rfl : i = s.registered.length := by omega
      rw [List.getElem?_concat_length] at hop
      obtain rfl := Option.some.inj hop
      exact Function.update_self ..
  · intro op' hop
    obtain hop | hop := List.mem_append.mp hop
    · exact h.known op' hop
    · rwa [List.mem_singleton.mp hop]
  · have htokens := h.tokens
    change s.carried.length + (s.unwritten + 1) + s.pipe + s.reader.taken = (s.registered ++ [op]).length
    omega
  · exact h.busy

theorem Inv.write (h : s.Inv) (hstep : s.writeByte = some s') : s'.Inv ∧ s'.registered = s.registered ∧
    s'.unwritten + 1 = s.unwritten ∧ s'.pipe = s.pipe + 1 ∧ s'.reader = s.reader := by
  have hroom := h.room
  have htokens := h.tokens
  have hnone : s.unwritten ≠ 0 := fun hnone => by
    rw [writeByte, if_pos hnone] at hstep
    cases hstep
  -- what is registered and not carried out is at most the ring, and the pipe holds a byte more
  have hfits : s.pipe < pipeCapacity := by
    rw [pipeCapacity]
    omega
  rw [writeByte, if_neg hnone, if_pos hfits] at hstep
  obtain rfl := Option.some.inj hstep
  refine ⟨⟨h.wr, h.rd, h.room, h.order, h.kept, h.known, ?_, h.busy⟩, rfl, ?_, rfl, rfl⟩
  · dsimp only
    omega
  · dsimp only
    omega

theorem Inv.read (h : s.Inv) (hstep : s.readBytes n = some s') : s'.Inv ∧ s'.registered = s.registered ∧
    s'.unwritten = s.unwritten ∧ s'.pipe + n = s.pipe ∧ 0 < n ∧
    ∃ uiReadLen, s'.reader = .reading uiReadLen ∧ uiReadLen.toNat = s.reader.taken + n := by
  have hroom := h.room
  have htokens := h.tokens
  rw [readBytes] at hstep
  split_ifs at hstep with hn
  obtain ⟨hpos, -, hle⟩ := hn
  have hnat : (UInt32.ofNat n).toNat = n := UInt32.toNat_ofNat_of_lt' (show n < 2 ^ 32 by omega)
  have hnext : ∀ uiReadLen : UINT4, uiReadLen.toNat = s.reader.taken + n →
      s' = { s with pipe := s.pipe - n, reader := .reading uiReadLen } → s'.Inv ∧ s'.registered = s.registered ∧
        s'.unwritten = s.unwritten ∧ s'.pipe + n = s.pipe ∧ 0 < n ∧
        ∃ uiReadLen, s'.reader = .reading uiReadLen ∧ uiReadLen.toNat = s.reader.taken + n := by
    rintro uiReadLen hlen rfl
    refine ⟨⟨h.wr, h.rd, h.room, h.order, h.kept, h.known, ?_, fun _ => ?_⟩, rfl, rfl, Nat.sub_add_cancel hle, hpos,
      uiReadLen, rfl, hlen⟩
    · change s.carried.length + s.unwritten + (s.pipe - n) + uiReadLen.toNat = s.registered.length
      omega
    · change 0 < uiReadLen.toNat
      omega
  cases hreader : s.reader with
  | idle =>
    rw [hreader] at hstep hnext
    exact hnext _ (hnat.trans (Nat.zero_add n).symm) (Option.some.inj hstep).symm
  | reading uiReadLen =>
    rw [hreader] at hstep hnext htokens
    change s.carried.length + s.unwritten + s.pipe + uiReadLen.toNat = _ at htokens
    refine hnext (uiReadLen + UInt32.ofNat n) ?_ (Option.some.inj hstep).symm
    rw [UInt32.toNat_add, hnat]
    exact Nat.mod_eq_of_lt (by omega)
  | processing left =>
    rw [hreader] at hstep
    cases hstep

theorem Inv.drained (h : s.Inv) (hstep : s.readEmpty = some s') : s'.Inv ∧ s'.registered = s.registered ∧
    s'.unwritten = s.unwritten ∧ s'.pipe = s.pipe ∧
    ∃ uiReadLen, s.reader = .reading uiReadLen ∧ s'.reader = .processing uiReadLen.toNat := by
  have htokens := h.tokens
  have hbusy := h.busy
  rw [readEmpty] at hstep
  cases hreader : s.reader with
  | idle | processing _ =>
    rw [hreader] at hstep
    cases hstep
  | reading uiReadLen =>
    rw [hreader] at hstep htokens hbusy
    dsimp only at hstep
    split_ifs at hstep with hempty hpos
    · obtain rfl := Option.some.inj hstep
      exact ⟨⟨h.wr, h.rd, h.room, h.order, h.kept, h.known, htokens, fun _ => hbusy nofun⟩, rfl, rfl, rfl, uiReadLen,
        rfl, rfl⟩
    · have hlt : 0 < uiReadLen.toNat := hbusy nofun
      exact absurd ((UInt32.lt_iff_toNat_lt (a := 0)).mpr hlt) hpos

theorem processOne_reader (hstep : s.processOne = some s') : ∃ left, s.reader = .processing (left + 1) := by
  cases hreader : s.reader with
  | idle | reading _ =>
    rw [processOne, hreader] at hstep
    cases hstep
  | processing left =>
    cases left with
    | zero =>
      rw [processOne, hreader] at hstep
      cases hstep
    | succ left => exact ⟨left, rfl⟩

/-- The entry that is read next is that of the first operation that is not carried out. -/
theorem Inv.nextEntry {left : ℕ} (h : s.Inv) (hreader : s.reader = .processing (left + 1)) : ∃ op t,
    s.carried ++ op :: t = s.registered ∧ Known op.uiOpType ∧
      s.g_stPipeEvent_SockFdQueue s.g_uiPipeEventRdOffset.toNat = ⟨1, op⟩ := by
  have htokens := h.tokens
  rw [hreader] at htokens
  change s.carried.length + s.unwritten + s.pipe + (left + 1) = _ at htokens
  obtain ⟨t, ht⟩ := h.order
  cases t with
  | nil =>
    rw [List.append_nil] at ht
    rw [ht] at htokens
    omega
  | cons op t =>
    have hop : s.registered[s.carried.length]? = some op := by
      rw [← ht, List.getElem?_append_right le_rfl, Nat.sub_self]
      rfl
    refine ⟨op, t, ht, h.known op (ht ▸ List.mem_append_right _ List.mem_cons_self), ?_⟩
    rw [h.rd]
    exact h.kept _ op le_rfl hop

theorem taken_next (left : ℕ) : (if left = 0 then Reader.idle else .processing left).taken = left := by
  split_ifs with hleft
  · exact hleft.symm
  · rfl

theorem Inv.process (h : s.Inv) (hstep : s.processOne = some s') : s'.Inv ∧ s'.registered = s.registered ∧
    s'.unwritten = s.unwritten ∧ s'.pipe = s.pipe ∧ s'.reader.taken + 1 = s.reader.taken ∧
    s'.reader = if s'.reader.taken = 0 then .idle else .processing s'.reader.taken := by
  obtain ⟨left, hreader⟩ := processOne_reader hstep
  obtain ⟨op, t, ht, hknown, hentry⟩ := h.nextEntry hreader
  have htokens := h.tokens
  have hroom := h.room
  rw [hreader] at htokens
  change s.carried.length + s.unwritten + s.pipe + (left + 1) = _ at htokens
  rw [processOne, hreader] at hstep
  dsimp only at hstep
  rw [hentry, if_pos hknown] at hstep
  obtain rfl := Option.some.inj hstep
  have hlen : (s.carried ++ [op]).length = s.carried.length + 1 := List.length_append
  have htaken : (Reader.processing (left + 1)).taken = left + 1 := rfl
  refine ⟨⟨h.wr, (next_offset h.rd).trans (congrArg (· % 65535) hlen.symm), ?_, ⟨t, ?_⟩, ?_, h.known, ?_, ?_⟩,
    rfl, rfl, rfl, ?_, ?_⟩
  · change s.registered.length ≤ (s.carried ++ [op]).length + 65535
    omega
  · rw [← ht, List.append_assoc]
    rfl
  · intro i op' hi hop'
    have hi : (s.carried ++ [op]).length ≤ i := hi
    have hlt : i < s.registered.length := (List.getElem?_eq_some_iff.mp hop').1
    change Function.update _ _ _ _ = _
    rw [h.rd, Function.update_of_ne (by omega)]
    exact h.kept i op' (by omega) hop'
  · change (s.carried ++ [op]).length + s.unwritten + s.pipe + _ = s.registered.length
    rw [taken_next]
    omega
  · dsimp only
    intro hbusy
    rw [taken_next]
    by_contra hleft
    exact hbusy (if_pos (by omega))
  · dsimp only
    rw [taken_next, hreader, htaken]
  · dsimp only
    rw [taken_next]

theorem Inv.step (h : s.Inv) (hfree : s.Free e) (hstep : s.step e = some s') : s'.Inv := by
  cases e with
  | register op =>
    obtain rfl := Option.some.inj hstep
    exact h.register hfree
  | write => exact (h.write hstep).1
  | read n => exact (h.read hstep).1
  | drained => exact (h.drained hstep).1
  | process => exact (h.process hstep).1

/-- The steps that are left without new calls, at most. -/
def stepsLeft (s : PipeState) : ℕ :=
  5 * s.unwritten + 4 * s.pipe +
    match s.reader with
    | .idle => 0
    | .reading uiReadLen => 2 * uiReadLen.toNat + 1
    | .processing left => 2 * left

/-- Every step that is not a call brings the end nearer. -/
theorem Inv.internal (h : s.Inv) (he : s.Internal e) (hstep : s.step e = some s') :
    s'.Inv ∧ s'.registered = s.registered ∧ s'.stepsLeft < s.stepsLeft := by
  cases e with
  | register op => exact he.elim
  | write =>
    obtain ⟨hinv, hregistered, hunwritten, hpipe, hreader⟩ := h.write hstep
    refine ⟨hinv, hregistered, ?_⟩
    rw [stepsLeft, stepsLeft, hreader, hpipe]
    omega
  | read n =>
    obtain ⟨hinv, hregistered, hunwritten, hpipe, hpos, uiReadLen, hreader, htaken⟩ := h.read hstep
    refine ⟨hinv, hregistered, ?_⟩
    rw [stepsLeft, stepsLeft, hreader, hunwritten]
    dsimp only
    cases hold : s.reader with
    | idle =>
      rw [hold, Reader.taken] at htaken
      omega
    | reading uiReadLen' =>
      rw [hold, Reader.taken] at htaken
      dsimp only
      omega
    | processing left =>
      rw [PipeState.step, readBytes, hold, ite_self] at hstep
      cases hstep
  | drained =>
    obtain ⟨hinv, hregistered, hunwritten, hpipe, uiReadLen, hold, hreader⟩ := h.drained hstep
    refine ⟨hinv, hregistered, ?_⟩
    rw [stepsLeft, stepsLeft, hreader, hold, hunwritten, hpipe]
    dsimp only
    omega
  | process =>
    obtain ⟨hinv, hregistered, hunwritten, hpipe, htaken, hreader⟩ := h.process hstep
    refine ⟨hinv, hregistered, ?_⟩
    have hold : s.reader = .processing s.reader.taken := by
      cases hold : s.reader with
      | processing left => rfl
      | idle | reading _ =>
        rw [PipeState.step, processOne, hold] at hstep
        cases hstep
    rw [stepsLeft, stepsLeft, hold, hunwritten, hpipe, hreader]
    dsimp only
    split_ifs
    all_goals
      dsimp only
      omega

/-- While a byte or an operation is under way, there is such a step. -/
theorem Inv.enabled (h : s.Inv) (hbusy : ¬(s.unwritten = 0 ∧ s.pipe = 0 ∧ s.reader = .idle)) :
    ∃ e s', s.Internal e ∧ s.step e = some s' := by
  have hread : ∀ r, s.reader = r → (∀ left, r ≠ .processing left) → 0 < s.pipe →
      ∃ e s', s.Internal e ∧ s.step e = some s' := by
    rintro r hreader hnot hpos
    have hone : 0 < 1 ∧ 1 ≤ 1024 ∧ 1 ≤ s.pipe := ⟨by decide, by decide, hpos⟩
    refine ⟨.read 1, ?_⟩
    rw [PipeState.step, readBytes, if_pos hone, hreader]
    cases r with
    | idle => exact ⟨_, trivial, rfl⟩
    | reading uiReadLen => exact ⟨_, trivial, rfl⟩
    | processing left => exact absurd rfl (hnot left)
  cases hreader : s.reader with
  | idle =>
    obtain hpipe | hpipe := Nat.eq_zero_or_pos s.pipe
    · have hunwritten : s.unwritten ≠ 0 := fun hzero => hbusy ⟨hzero, hpipe, hreader⟩
      refine ⟨.write, ?_⟩
      rw [PipeState.step, writeByte, if_neg hunwritten]
      exact ⟨_, trivial, rfl⟩
    · exact hread _ hreader nofun hpipe
  | reading uiReadLen =>
    obtain hpipe | hpipe := Nat.eq_zero_or_pos s.pipe
    · refine ⟨.drained, ?_⟩
      rw [PipeState.step, readEmpty, hreader]
      dsimp only
      rw [if_pos hpipe]
      exact ⟨_, trivial, rfl⟩
    · exact hread _ hreader nofun hpipe
  | processing left =>
    have hpos := h.busy (by rw [hreader]; nofun)
    rw [hreader, Reader.taken] at hpos
    obtain ⟨left, rfl⟩ := Nat.exists_eq_succ_of_ne_zero hpos.ne'
    refine ⟨.process, ?_⟩
    rw [PipeState.step, processOne, hreader]
    dsimp only
    split_ifs <;> exact ⟨_, trivial, rfl⟩

/-- The calls that were made come to their end without another one, and then every operation is carried out. -/
theorem Inv.finishes (h : s.Inv) : ∃ s', Run PipeState.step Internal s s' ∧ s'.carried = s.registered := by
  induction hn : s.stepsLeft using Nat.strong_induction_on generalizing s with
  | _ n ih =>
    by_cases hbusy : s.unwritten = 0 ∧ s.pipe = 0 ∧ s.reader = .idle
    · exact ⟨s, .refl, h.sound.quiet hbusy.1 hbusy.2.1 hbusy.2.2⟩
    · obtain ⟨e, s₁, he, hstep⟩ := h.enabled hbusy
      obtain ⟨h₁, hregistered, hless⟩ := h.internal he hstep
      obtain ⟨s', hrun, hcarried⟩ := ih _ (hn ▸ hless) h₁ rfl
      exact ⟨s', hrun.head he hstep, hcarried.trans hregistered⟩

/-- Where the ring is never full, the operations are carried out in order, none is overwritten, and each comes to be
carried out. -/
theorem operations_carried_out (s : PipeState) (hrun : Run step Free start s) :
    s.Sound ∧ ∃ s', Run step Internal s s' ∧ s'.carried = s.registered := by
  have h : s.Inv := hrun.invariant (fun _ _ _ ht hfree hstep => ht.step hfree hstep) inv_start
  exact ⟨h.sound, h.finishes⟩

def closeSock (iSockFd : INT4) : OpSock := ⟨FREESOCK, iSockFd, 0⟩

theorem one_operation_carried_out : ∃ s, Run step Free start s ∧ s.registered = [closeSock 7] ∧ s.Sound := by
  have hfree : start.Free (.register (closeSock 7)) := ⟨by decide, rfl⟩
  have hrun : Run step Free start (start.registerOp (closeSock 7)) := .tail .refl hfree rfl
  exact ⟨_, hrun, rfl, (operations_carried_out _ hrun).1⟩

/-- Every call is for an operation of a known type. -/
def Proper (_ : PipeState) (e : PipeStep) : Prop := ∀ op, e = .register op → Known op.uiOpType

/-- `k` operations and their bytes are written, and none is read. -/
structure Unread (k : ℕ) (s : PipeState) : Prop where
  reaches : Run step Proper start s
  registered : s.registered = (List.range k).map fun i => closeSock (Int32.ofNat i)
  carried : s.carried = []
  wr : s.g_uiPipeEventWrOffset.toNat = k % 65535
  unwritten : s.unwritten = 0
  last : ∀ i, k = i + 1 → s.g_stPipeEvent_SockFdQueue (i % 65535) = ⟨1, closeSock (Int32.ofNat i)⟩

theorem exists_unread (k : ℕ) : ∃ s, Unread k s := by
  induction k with
  | zero => exact ⟨start, .refl, rfl, rfl, rfl, rfl, nofun⟩
  | succ k ih =>
    obtain ⟨s, h⟩ := ih
    have hwrite : (s.registerOp (closeSock (Int32.ofNat k))).writeByte = some _ := if_neg (Nat.succ_ne_zero _)
    refine ⟨_, (h.reaches.tail (a := .register (closeSock (Int32.ofNat k))) ?_ rfl).tail (a := .write) nofun hwrite,
      ?_, h.carried, next_offset h.wr, h.unwritten, ?_⟩
    · intro op he
      obtain rfl := PipeStep.register.inj he
      exact .inr (.inr rfl)
    · rw [List.range_succ, List.map_append, ← h.registered]
      rfl
    · rintro i hi
      obtain rfl := Nat.succ.inj hi
      change Function.update _ _ _ _ = _
      rw [h.wr, Function.update_self]

/-- With 65536 operations in the ring and their bytes in the pipe, the last is in the entry of the first. -/
theorem operation_overwritten : ∃ s, Run step Proper start s ∧ ¬s.Sound := by
  obtain ⟨s, h⟩ := exists_unread 65536
  refine ⟨s, h.reaches, fun hsound => ?_⟩
  have hfirst : s.registered[0]? = some (closeSock 0) := by
    rw [h.registered, List.getElem?_map, List.getElem?_range (by decide)]
    rfl
  have hentry := hsound.kept 0 _ (by rw [h.carried]; exact le_rfl) hfirst
  have hlast := h.last 65535 rfl
  rw [show 65535 % 65535 = 0 from rfl] at hlast
  rw [show 0 % PIPEEVENT_QUEUE_NUM.toNat = 0 from rfl, hlast] at hentry
  exact absurd hentry (by decide)

end PipeState

end DCFabric.ConnSvr
