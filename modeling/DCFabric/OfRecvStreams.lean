import DCFabric.OfRecvWorker

namespace DCFabric

open MessageFraming

namespace COfRecvWorker

def deliveredOn (fd : INT4) (log : List CMsg) : List CMsg := log.filter (fun msg => msg.sockfd = fd)

variable {w : COfRecvWorker} {sockfd : INT4} {trace : List (INT4 × List UINT1)} {buffer tail : List UINT1}

theorem deliveredOn_append (fd : INT4) (log msgs : List CMsg) :
    deliveredOn fd (log ++ msgs) = deliveredOn fd log ++ deliveredOn fd msgs := List.filter_append ..

theorem deliveredOn_self (fd : INT4) (ms : List (List UINT1)) :
    deliveredOn fd (ms.map (CMsg.ofBytes fd)) = ms.map (CMsg.ofBytes fd) := by
  apply List.filter_eq_self.2
  intro msg hmsg
  obtain ⟨m, -, rfl⟩ := List.mem_map.1 hmsg
  exact decide_eq_true rfl

theorem deliveredOn_other {fd : INT4} (hf : fd ≠ sockfd) (ms : List (List UINT1)) :
    deliveredOn fd (ms.map (CMsg.ofBytes sockfd)) = [] := by
  apply List.filter_eq_nil_iff.2
  intro msg hmsg
  obtain ⟨m, -, rfl⟩ := List.mem_map.1 hmsg
  exact fun h => hf.symm (of_decide_eq_true h)

theorem receiveAll_snoc {log : List CMsg} {w' : COfRecvWorker} (hrun : w.receiveAll trace = .ok (log, w')) :
    w.receiveAll (trace ++ [(sockfd, buffer)]) = receive (log, w') (sockfd, buffer) := by
  rw [receiveAll] at hrun ⊢
  rw [List.foldlM_append, hrun]
  exact bind_pure (receive (log, w') (sockfd, buffer))

theorem receiveAll_spec (w : COfRecvWorker) (trace : List (INT4 × List UINT1)) (hopen : ∀ c ∈ trace, w.Awaiting c.1 [])
    (hmax : ∀ c ∈ trace, c.2.length ≤ max_recv_buffer_size) (hs : ∀ fd, ofpFramer.Sound (bytesOn fd trace)) :
    ∃ log w', w.receiveAll trace = .ok (log, w') ∧ ∀ fd, w.Awaiting fd [] →
      ∃ ms tail, ofpFramer.Frames (bytesOn fd trace) ms tail ∧
        deliveredOn fd log = ms.map (CMsg.ofBytes fd) ∧ w'.Awaiting fd tail := by
  induction trace using List.reverseRecOn with
  | nil =>
    refine ⟨[], w, rfl, ?_⟩
    intro fd hfd
    exact ⟨[], [], Framer.Frames.of_messages (by decide) (List.forall_mem_nil _), rfl, hfd⟩
  | append_singleton trace c ih =>
    obtain ⟨sockfd, buffer⟩ := c
    have hlast : (sockfd, buffer) ∈ trace ++ [(sockfd, buffer)] := List.mem_append_right _ List.mem_cons_self
    obtain ⟨log, w', hrun, hall⟩ := ih (fun c hc => hopen c (List.mem_append_left _ hc))
      (fun c hc => hmax c (List.mem_append_left _ hc))
      (fun fd => Framer.Announces.take (by rw [← bytesOn_append]; exact hs fd))
    obtain ⟨ms, tail, hf, hd, haw⟩ := hall sockfd (hopen _ hlast)
    have hnext : ofpFramer.Sound (tail ++ buffer) := by
      have h := hs sockfd
      rw [bytesOn_append, bytesOn_self, hf.spells, List.append_assoc] at h
      exact h.drop_flatten hf.messages
    obtain ⟨ret, ms', left, b, hp, hf', hv, hc⟩ := process_spec haw hf.tail hnext (hmax _ hlast)
    refine ⟨log ++ ms'.map (CMsg.ofBytes sockfd), w'.store sockfd b, ?_, ?_⟩
    · rw [receiveAll_snoc hrun, receive, hp]
      rfl
    · intro fd hfd
      by_cases he : fd = sockfd
      · subst he
        refine ⟨ms ++ ms', left, ?_, ?_, hc ▸ awaiting_store hv⟩
        · rw [bytesOn_append, bytesOn_self]
          exact hf.append hf'
        · rw [deliveredOn_append, deliveredOn_self, hd, List.map_append]
      · obtain ⟨ms₀, tail₀, hf₀, hd₀, haw₀⟩ := hall fd hfd
        refine ⟨ms₀, tail₀, ?_, ?_, (awaiting_store_of_ne he).2 haw₀⟩
        · rw [bytesOn_append, bytesOn_other he, List.append_nil]
          exact hf₀
        · rw [deliveredOn_append, deliveredOn_other he, List.append_nil, hd₀]

theorem bytesOn_take_sound {msgs : INT4 → List (List UINT1)} (k : ℕ)
    (hwf : ∀ fd, ∀ m ∈ msgs fd, ofpFramer.Message m) (hcut : ∀ fd, bytesOn fd trace = (msgs fd).flatten) (fd : INT4) :
    ofpFramer.Sound (bytesOn fd (trace.take k)) := by
  have hf := Framer.Frames.of_messages (F := ofpFramer) (by decide) (hwf fd)
  have hs := hf.sound
  rw [← hcut, ← List.take_append_drop k trace, bytesOn_append] at hs
  exact hs.take

theorem receiveAll_delivers_streams {msgs : INT4 → List (List UINT1)} (hopen : ∀ c ∈ trace, w.Awaiting c.1 [])
    (hmax : ∀ c ∈ trace, c.2.length ≤ max_recv_buffer_size)
    (hwf : ∀ fd, ∀ m ∈ msgs fd, ofpFramer.Message m) (hcut : ∀ fd, bytesOn fd trace = (msgs fd).flatten) :
    (∃ log w', w.receiveAll trace = .ok (log, w') ∧ ∀ fd, w.Awaiting fd [] →
      deliveredOn fd log = (msgs fd).map (CMsg.ofBytes fd) ∧ w'.Awaiting fd []) ∧
    ∀ k, ∃ log w', w.receiveAll (trace.take k) = .ok (log, w') ∧ ∀ fd, w.Awaiting fd [] →
      ∃ ms tail, ofpFramer.Frames (bytesOn fd (trace.take k)) ms tail ∧
        deliveredOn fd log = ms.map (CMsg.ofBytes fd) ∧ w'.Awaiting fd tail := by
  have hprefix : ∀ k, ∃ log w', w.receiveAll (trace.take k) = .ok (log, w') ∧ ∀ fd, w.Awaiting fd [] →
      ∃ ms tail, ofpFramer.Frames (bytesOn fd (trace.take k)) ms tail ∧
        deliveredOn fd log = ms.map (CMsg.ofBytes fd) ∧ w'.Awaiting fd tail := by
    intro k
    apply receiveAll_spec
    · exact fun c hc => hopen c (List.mem_of_mem_take hc)
    · exact fun c hc => hmax c (List.mem_of_mem_take hc)
    · exact bytesOn_take_sound k hwf hcut
  refine ⟨?_, hprefix⟩
  obtain ⟨log, w', hrun, hall⟩ := hprefix trace.length
  rw [List.take_length] at hrun hall
  refine ⟨log, w', hrun, ?_⟩
  intro fd hfd
  obtain ⟨ms, tail, hf, hd, haw⟩ := hall fd hfd
  rw [hcut] at hf
  obtain ⟨rfl, rfl⟩ := hf.unique (Framer.Frames.of_messages (by decide) (hwf fd))
  exact ⟨hd, haw⟩

def hello (xid : UINT1) : List UINT1 := [4, 0, 0, 8, 0, 0, 0, xid]

def echoRequest : List UINT1 := [4, 2, 0, 9, 0, 0, 0, 2, 7]

def twoSwitches : COfRecvWorker := (new.addConnFd 5).addConnFd 6

def twoStreams (fd : INT4) : List (List UINT1) :=
  if fd = 5 then [hello 1, echoRequest] else if fd = 6 then [hello 3] else []

def twoTraces : List (INT4 × List UINT1) :=
  [(5, [4, 0, 0]), (6, [4, 0, 0, 8, 0]), (5, [8, 0, 0, 0, 1, 4, 2, 0, 9, 0]), (6, [0, 0, 3]), (5, [0, 0, 2, 7])]

theorem twoSwitches_awaiting {fd : INT4} (hf : fd = 5 ∨ fd = 6) : twoSwitches.Awaiting fd [] := by
  rcases hf with rfl | rfl
  · exact (awaiting_store_of_ne (by decide)).2 (new_awaiting 5)
  · exact addConnFd_awaiting (fun _ hb => absurd hb (Option.some_ne_none _).symm)

theorem twoStreams_message (fd : INT4) : ∀ m ∈ twoStreams fd, ofpFramer.Message m := by
  intro m hm
  by_cases h5 : fd = 5
  · subst h5
    rcases List.mem_pair.1 hm with rfl | rfl <;> exact ⟨by decide, by decide⟩
  · by_cases h6 : fd = 6
    · subst h6
      rw [List.mem_singleton.1 hm]
      exact ⟨by decide, by decide⟩
    · rw [twoStreams, if_neg h5, if_neg h6] at hm
      cases hm

theorem twoTraces_cut (fd : INT4) : bytesOn fd twoTraces = (twoStreams fd).flatten := by
  by_cases h5 : fd = 5
  · subst h5
    decide
  · by_cases h6 : fd = 6
    · subst h6
      decide
    · rw [twoStreams, if_neg h5, if_neg h6]
      simp [bytesOn, twoTraces, Ne.symm h5, Ne.symm h6]

theorem twoStreams_delivered : ∃ log w', twoSwitches.receiveAll twoTraces = .ok (log, w') ∧
    deliveredOn 5 log = [CMsg.ofBytes 5 (hello 1), CMsg.ofBytes 5 echoRequest] ∧
    deliveredOn 6 log = [CMsg.ofBytes 6 (hello 3)] := by
  have hopen : ∀ c ∈ twoTraces, twoSwitches.Awaiting c.1 [] := by
    intro c hc
    apply twoSwitches_awaiting
    revert c
    decide
  obtain ⟨⟨log, w', hrun, hall⟩, -⟩ :=
    receiveAll_delivers_streams hopen (by decide) twoStreams_message twoTraces_cut
  exact ⟨log, w', hrun, (hall 5 (twoSwitches_awaiting (Or.inl rfl))).1,
    (hall 6 (twoSwitches_awaiting (Or.inr rfl))).1⟩

def Cutting (xs : List UINT1) (chunks : List (List UINT1)) : Prop :=
  chunks.flatten = xs ∧ ∀ c ∈ chunks, c.length ≤ max_recv_buffer_size

def delivered (w : COfRecvWorker) (sockfd : INT4) (chunks : List (List UINT1)) : Except Fault (List (List UINT1)) :=
  (w.receiveAll (chunks.map (fun c => (sockfd, c)))).map (fun s => (deliveredOn sockfd s.1).map CMsg.data)

structure Robust (w : COfRecvWorker) (sockfd : INT4) (xs : List UINT1) : Prop where
  completes : ∀ chunks, Cutting xs chunks → ∃ msgs, w.delivered sockfd chunks = .ok msgs
  full : ∀ chunks msgs, Cutting xs chunks → w.delivered sockfd chunks = .ok msgs → ∀ m ∈ msgs, OfpHeader.size ≤ m.length
  same : ∀ chunks chunks', Cutting xs chunks → Cutting xs chunks' →
    w.delivered sockfd chunks = w.delivered sockfd chunks'

theorem receiveAll_chunks {chunks : List (List UINT1)} (hw : w.Awaiting sockfd [])
    (hmax : ∀ c ∈ chunks, c.length ≤ max_recv_buffer_size) (hs : ofpFramer.Sound chunks.flatten) :
    ∃ log w' ms tail, w.receiveAll (chunks.map (fun c => (sockfd, c))) = .ok (log, w') ∧
      ofpFramer.Frames chunks.flatten ms tail ∧ deliveredOn sockfd log = ms.map (CMsg.ofBytes sockfd) ∧
      w'.Awaiting sockfd tail := by
  have hnil := (Framer.Frames.of_messages (F := ofpFramer) (by decide) (List.forall_mem_nil _)).sound
  have hrun := receiveAll_spec w (chunks.map (fun c => (sockfd, c)))
  simp only [bytesOn_chunks, List.forall_mem_map] at hrun
  obtain ⟨log, w', hr, hall⟩ := hrun (fun _ _ => hw) hmax (fun fd => by split; exacts [hs, hnil])
  obtain ⟨ms, tail, hf, hd, haw⟩ := hall sockfd hw
  rw [if_pos rfl] at hf
  exact ⟨log, w', ms, tail, hr, hf, hd, haw⟩

theorem delivered_eq (chunks : List (List UINT1)) (hw : w.Awaiting sockfd [])
    (hmax : ∀ c ∈ chunks, c.length ≤ max_recv_buffer_size) (hs : ofpFramer.Sound chunks.flatten) :
    ∃ ms tail, ofpFramer.Frames chunks.flatten ms tail ∧ w.delivered sockfd chunks = .ok ms := by
  obtain ⟨log, w', ms, tail, hr, hf, hd, -⟩ := receiveAll_chunks hw hmax hs
  refine ⟨ms, tail, hf, ?_⟩
  have hdata : (ms.map (CMsg.ofBytes sockfd)).map CMsg.data = ms := by
    rw [List.map_map]
    exact List.map_id ms
  rw [delivered, hr, Except.map, hd, hdata]

theorem log_of_receive {log log' : List CMsg} {w' : COfRecvWorker} {c : INT4 × List UINT1}
    (hr : receive (log, w) c = .ok (log', w')) : log <+: log' := by
  rw [receive] at hr
  cases hp : w.process c.1 c.2 with
  | error fault =>
    rw [hp] at hr
    cases hr
  | ok r =>
    rw [hp] at hr
    cases hr
    exact List.prefix_append ..

theorem log_of_receiveAll {ys : List (INT4 × List UINT1)} {log : List CMsg} {w' : COfRecvWorker}
    (hrun : w.receiveAll (trace ++ ys) = .ok (log, w')) :
    ∃ log₁ w₁, w.receiveAll trace = .ok (log₁, w₁) ∧ log₁ <+: log := by
  induction ys using List.reverseRecOn generalizing log w' with
  | nil => exact ⟨log, w', by rwa [List.append_nil] at hrun, List.prefix_rfl⟩
  | append_singleton ys c ih =>
    rw [← List.append_assoc] at hrun
    cases hmid : w.receiveAll (trace ++ ys) with
    | error fault =>
      rw [receiveAll, List.foldlM_append, ← receiveAll, hmid] at hrun
      exact absurd hrun (by simp [bind, Except.bind])
    | ok s =>
      obtain ⟨log₂, w₂⟩ := s
      rw [receiveAll_snoc hmid] at hrun
      obtain ⟨log₁, w₁, hr, hp⟩ := ih hmid
      exact ⟨log₁, w₁, hr, hp.trans (log_of_receive hrun)⟩

/-- A buffered header that is cut off one byte before its end and announces less than itself. -/
theorem process_malformed {b : UINT1} (hw : w.Awaiting sockfd tail) (ht : tail.length = 7)
    (hl : (OfpHeader.ofBytes (tail ++ [b])).length < OfpHeader.size) :
    w.process sockfd [b] = .error .wrappedLength ∨ ∃ ret msgs w',
      w.process sockfd [b] = .ok (ret, CMsg.ofHeader sockfd (OfpHeader.ofBytes (tail ++ [b])) tail :: msgs, w') := by
  obtain ⟨recvBuffer, hmap, hb, rfl⟩ := hw
  have hlen : recvBuffer.length = 7 := hb.contents_length.symm.trans ht
  have h8 : OfpHeader.size = 8 := rfl
  have hu : u4 (7 + [b].length) = 8 := rfl
  have hcat : (recvBuffer.contents ++ [b]).length = 8 := by rw [List.length_append, ht]; rfl
  have hprocess : w.process sockfd [b] =
      w.completeMsg sockfd [b] recvBuffer (OfpHeader.ofBytes (recvBuffer.contents ++ [b])) := by
    simp only [process, hmap, hlen, hu, if_neg (show ¬7 = 0 by decide), if_neg (show ¬8 < OfpHeader.size by decide)]
    rw [bufferedHeader_eq hb (by rw [ht, h8]; exact le_rfl)]
    simp only [Except.bind, bind]
    rw [if_neg (by omega)]
  rw [hprocess]
  by_cases h7 : (OfpHeader.ofBytes (recvBuffer.contents ++ [b])).length < 7
  · left
    rw [completeMsg, hlen]
    exact if_pos h7
  · right
    have heq : (OfpHeader.ofBytes (recvBuffer.contents ++ [b])).length = recvBuffer.contents.length := by omega
    obtain ⟨c, hv, hc, he⟩ := completeMsg_eq w sockfd [b] hb heq.ge
    have hs : ofpFramer.Sound [b] := by
      apply Framer.Frames.sound (Framer.Frames.nil _)
      intro (hh : 8 ≤ 1)
      omega
    obtain ⟨ret, ms, left, c', hp, -⟩ := procRecvBuffer_spec w sockfd hs hv hc
    rw [he, heq, List.drop_left, List.take_left, hp]
    exact ⟨ret, _, _, rfl⟩

theorem exists_malformed {xs : List UINT1} (hx : ¬ofpFramer.Sound xs) :
    ∃ (ms : List (List UINT1)) (rest : List UINT1), xs = ms.flatten ++ rest ∧ (∀ m ∈ ms, ofpFramer.Message m) ∧
      OfpHeader.size ≤ rest.length ∧ (OfpHeader.ofBytes rest).length < OfpHeader.size := by
  simp only [Framer.Sound, Framer.Announces, not_forall] at hx
  obtain ⟨ms, rest, hspell, hm, hh, hl⟩ := hx
  exact ⟨ms, rest, hspell, hm, hh, not_le.1 hl⟩

def bytewise (xs : List UINT1) : List (List UINT1) := xs.map (fun b => [b])

theorem bytewise_flatten (xs : List UINT1) : (bytewise xs).flatten = xs := by
  induction xs with
  | nil => rfl
  | cons b xs ih => rw [bytewise, List.map_cons, List.flatten_cons, ← bytewise, ih, List.singleton_append]

theorem bytewise_cutting (xs : List UINT1) : Cutting xs (bytewise xs) := by
  refine ⟨bytewise_flatten xs, ?_⟩
  intro c hc
  obtain ⟨b, -, rfl⟩ := List.mem_map.1 hc
  exact (by decide : 1 ≤ max_recv_buffer_size)

/-- Fed byte by byte, a header that announces less than itself wraps the length or comes out as a short message. -/
theorem not_robust {xs : List UINT1} (hw : w.Awaiting sockfd []) (hx : ¬ofpFramer.Sound xs) :
    ¬w.Robust sockfd xs := by
  intro hr
  obtain ⟨ms, rest, rfl, hm, hh, hl⟩ := exists_malformed hx
  have h8 : OfpHeader.size = 8 := rfl
  have h7 : (rest.take 7).length = 7 := by rw [List.length_take]; omega
  have hin : ofpFramer.Incomplete (rest.take 7) := by
    intro (hlong : OfpHeader.size ≤ _)
    omega
  obtain ⟨b, later, hdrop⟩ := List.exists_cons_of_length_pos (l := rest.drop 7) (by rw [List.length_drop]; omega)
  have hrest : rest = rest.take 7 ++ [b] ++ later := by
    rw [List.append_assoc, List.singleton_append, ← hdrop, List.take_append_drop]
  have hhead : (OfpHeader.ofBytes (rest.take 7 ++ [b])).length < OfpHeader.size := by
    rw [hrest, OfpHeader.ofBytes_append _ _ (by rw [List.length_append, h7]; exact le_rfl)] at hl
    exact hl
  have hgood : ofpFramer.Frames (bytewise (ms.flatten ++ rest.take 7)).flatten ms (rest.take 7) :=
    ⟨bytewise_flatten _, hm, hin⟩
  obtain ⟨log₁, w₁, ms₁, tail₁, hrun₁, hf₁, -, haw₁⟩ := receiveAll_chunks hw (bytewise_cutting _).2 hgood.sound
  obtain ⟨rfl, rfl⟩ := hf₁.unique hgood
  obtain ⟨msgs, hd⟩ := hr.completes _ (bytewise_cutting _)
  have hbytes : bytewise (ms₁.flatten ++ rest) =
      bytewise (ms₁.flatten ++ rest.take 7) ++ [[b]] ++ bytewise later := by
    conv_lhs => rw [hrest]
    simp only [bytewise, List.map_append, List.append_assoc, List.map_cons, List.map_nil]
  have hfull := hr.full _ msgs (bytewise_cutting _) hd
  rw [hbytes, delivered, List.map_append, List.map_append] at hd
  cases hall : w.receiveAll (List.map (fun c => (sockfd, c)) (bytewise (ms₁.flatten ++ rest.take 7)) ++
      List.map (fun c => (sockfd, c)) [[b]] ++ List.map (fun c => (sockfd, c)) (bytewise later)) with
  | error fault =>
    rw [hall] at hd
    cases hd
  | ok s =>
    obtain ⟨log, w'⟩ := s
    rw [hall] at hd
    cases hd
    obtain ⟨log₂, w₂, hrun₂, hp⟩ := log_of_receiveAll hall
    rw [List.map_singleton, receiveAll_snoc hrun₁, receive] at hrun₂
    rcases process_malformed haw₁ h7 hhead with he | ⟨ret, msgs, w₃, he⟩
    · rw [he] at hrun₂
      cases hrun₂
    · rw [he] at hrun₂
      cases hrun₂
      have hmem : CMsg.ofHeader sockfd (OfpHeader.ofBytes (rest.take 7 ++ [b])) (rest.take 7) ∈ log :=
        hp.subset (List.mem_append_right _ List.mem_cons_self)
      have hshort := hfull (rest.take 7)
        (List.mem_map.2 ⟨_, List.mem_filter.2 ⟨hmem, decide_eq_true rfl⟩, rfl⟩)
      omega

theorem robust_iff {xs : List UINT1} (hw : w.Awaiting sockfd []) :
    w.Robust sockfd xs ↔ ofpFramer.Sound xs := by
  constructor
  · intro hr
    by_contra hx
    exact not_robust hw hx hr
  · intro hs
    have hall : ∀ chunks, Cutting xs chunks → ∃ ms tail, ofpFramer.Frames xs ms tail ∧
        w.delivered sockfd chunks = .ok ms := by
      intro chunks hc
      obtain ⟨ms, tail, hf, hd⟩ := delivered_eq chunks hw hc.2 (by rw [hc.1]; exact hs)
      exact ⟨ms, tail, hc.1 ▸ hf, hd⟩
    refine ⟨?_, ?_, ?_⟩
    · intro chunks hc
      obtain ⟨ms, tail, -, hd⟩ := hall chunks hc
      exact ⟨ms, hd⟩
    · intro chunks msgs hc hd m hm
      obtain ⟨ms, tail, hf, hd'⟩ := hall chunks hc
      cases hd.symm.trans hd'
      exact (hf.messages m hm).1
    · intro chunks chunks' hc hc'
      obtain ⟨ms, tail, hf, hd⟩ := hall chunks hc
      obtain ⟨ms', tail', hf', hd'⟩ := hall chunks' hc'
      rw [hd, hd', (hf.unique hf').1]

theorem hello_robust : (new.addConnFd 5).Robust 5 (hello 1) := by
  apply (robust_iff (new_awaiting 5)).2
  rw [show hello 1 = [hello 1].flatten from rfl]
  apply Framer.Frames.sound (Framer.Frames.of_messages (by decide) _)
  intro m hm
  rw [List.mem_singleton.1 hm]
  exact ⟨by decide, by decide⟩

def shortHello : List UINT1 := [4, 0, 0, 0, 0, 0, 0, 1]

theorem shortHello_not_robust : ¬(new.addConnFd 5).Robust 5 shortHello := by
  apply not_robust (new_awaiting 5)
  intro hs
  exact absurd (hs [] shortHello rfl (List.forall_mem_nil _) (by decide)) (by decide)

end COfRecvWorker

end DCFabric
