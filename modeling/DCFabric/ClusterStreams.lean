import DCFabric.ClusterRecvWorker

namespace DCFabric

open MessageFraming

namespace CClusterRecvWorker

def deliveredOn (fd : INT4) (log : List (INT4 × List UINT1)) : List (List UINT1) :=
  (log.filter (fun msg => msg.1 = fd)).map Prod.snd

-- Whenever a peer's bytes come in, no other peer is in the middle of a message.
def Unmixed (trace : List (INT4 × List UINT1)) : Prop :=
  ∀ (pre post : List (INT4 × List UINT1)) (fd : INT4) (buffer : List UINT1),
    trace = pre ++ (fd, buffer) :: post → buffer ≠ [] → ∀ fd' ≠ fd,
      ∃ ms : List (List UINT1), (∀ m ∈ ms, clusterFramer.Message m) ∧ bytesOn fd' pre = ms.flatten

variable {w w' : CClusterRecvWorker} {sockfd fd : INT4} {trace log : List (INT4 × List UINT1)}
  {buffer tail : List UINT1}

theorem deliveredOn_append (msgs : List (INT4 × List UINT1)) :
    deliveredOn fd (log ++ msgs) = deliveredOn fd log ++ deliveredOn fd msgs := by
  rw [deliveredOn, List.filter_append, List.map_append]
  rfl

theorem deliveredOn_self (ms : List (List UINT1)) : deliveredOn fd (ms.map (fun m => (fd, m))) = ms := by
  rw [deliveredOn, List.filter_eq_self.2, List.map_map]
  · exact List.map_id ms
  · intro msg hmsg
    obtain ⟨m, -, rfl⟩ := List.mem_map.1 hmsg
    exact decide_eq_true rfl

theorem deliveredOn_other (hf : fd ≠ sockfd) (ms : List (List UINT1)) :
    deliveredOn fd (ms.map (fun m => (sockfd, m))) = [] := by
  rw [deliveredOn, List.filter_eq_nil_iff.2, List.map_nil]
  intro msg hmsg
  obtain ⟨m, -, rfl⟩ := List.mem_map.1 hmsg
  exact fun h => hf.symm (of_decide_eq_true h)

theorem receiveAll_snoc (hrun : w.receiveAll trace = some (log, w')) :
    w.receiveAll (trace ++ [(sockfd, buffer)]) = receive (log, w') (sockfd, buffer) := by
  rw [receiveAll] at hrun ⊢
  rw [List.foldlM_append, hrun]
  exact bind_pure (receive (log, w') (sockfd, buffer))

theorem Unmixed.left {ys : List (INT4 × List UINT1)} (hm : Unmixed (trace ++ ys)) : Unmixed trace := by
  intro pre post fd buffer ht
  apply hm pre (post ++ ys)
  rw [ht, List.append_assoc, List.cons_append]

theorem Unmixed.last {ms : List (List UINT1)} (hm : Unmixed (trace ++ [(sockfd, buffer)])) (hb : buffer ≠ [])
    (hf : fd ≠ sockfd) (hframes : clusterFramer.Frames (bytesOn fd trace) ms tail) : tail = [] := by
  obtain ⟨ms', hm', hbytes⟩ := hm trace [] sockfd buffer rfl hb fd hf
  rw [hbytes] at hframes
  exact (hframes.unique (Framer.Frames.of_messages (by decide) hm')).2

theorem Fits.tail_length {xs : List UINT1} {ms : List (List UINT1)} (hs : w.Fits xs)
    (hf : clusterFramer.Frames xs ms tail) : tail.length < ClusterHeader.size + w.m_size := by
  by_cases hh : ClusterHeader.size ≤ tail.length
  · have hfit := (hs ms tail hf.spells hf.messages hh).2
    have hlt := (hf.tail hh).2
    omega
  · omega

/-- The shared buffer holds the unfinished message of one peer, `owner`; no other peer has any. -/
structure Served (w' : CClusterRecvWorker) (trace log : List (INT4 × List UINT1)) (tails : INT4 → List UINT1)
    (owner : INT4) : Prop where
  frames : ∀ fd, clusterFramer.Frames (bytesOn fd trace) (deliveredOn fd log) (tails fd)
  others : ∀ fd ≠ owner, tails fd = []
  holds : w'.Holds (tails owner)

theorem Served.hand_over {tails : INT4 → List UINT1} {owner : INT4} (hs : Served w' trace log tails owner)
    (hm : Unmixed (trace ++ [(sockfd, buffer)])) (hb : buffer ≠ []) : Served w' trace log tails sockfd := by
  have hothers : ∀ fd ≠ sockfd, tails fd = [] := fun fd hf => hm.last hb hf (hs.frames fd)
  refine ⟨hs.frames, hothers, ?_⟩
  by_cases ho : owner = sockfd
  · exact ho ▸ hs.holds
  · rw [hs.others sockfd (Ne.symm ho), ← hothers owner ho]
    exact hs.holds

theorem Served.idle {tails : INT4 → List UINT1} {owner : INT4} (hs : Served w' trace log tails owner) :
    Served w' (trace ++ [(sockfd, [])]) log tails owner := by
  refine ⟨?_, hs.others, hs.holds⟩
  intro fd
  have hnil : bytesOn fd [(sockfd, [])] = [] := by
    by_cases hf : fd = sockfd
    · rw [hf, bytesOn_self]
    · exact bytesOn_other hf []
  rw [bytesOn_append, hnil, List.append_nil]
  exact hs.frames fd

theorem Served.chunk {tails : INT4 → List UINT1} {ms : List (List UINT1)} {w'' : CClusterRecvWorker}
    (hs : Served w' trace log tails sockfd) (hf : clusterFramer.Frames (tails sockfd ++ buffer) ms tail)
    (hw : w''.Holds tail) : Served w'' (trace ++ [(sockfd, buffer)]) (log ++ ms.map (fun m => (sockfd, m)))
      (Function.update tails sockfd tail) sockfd := by
  refine ⟨?_, ?_, ?_⟩
  · intro fd
    rw [bytesOn_append, deliveredOn_append]
    by_cases he : fd = sockfd
    · rw [he, bytesOn_self, deliveredOn_self, Function.update_self]
      exact (hs.frames sockfd).append hf
    · rw [bytesOn_other he, deliveredOn_other he, List.append_nil, List.append_nil, Function.update_of_ne he]
      exact hs.frames fd
  · intro fd he
    rw [Function.update_of_ne he]
    exact hs.others fd he
  · rw [Function.update_self]
    exact hw

theorem receiveAll_spec (hw : w.Holds []) (hmax : ∀ c ∈ trace, c.2.length ≤ max_recv_buffer_size)
    (hsize : w.m_size + max_recv_buffer_size + LOOP_BUFFER_EXT_SIZE + ClusterHeader.size < 2 ^ 32)
    (hs : ∀ fd, w.Fits (bytesOn fd trace)) (hmix : Unmixed trace) :
    ∃ log w' tails owner, w.receiveAll trace = some (log, w') ∧ w'.m_size = w.m_size ∧
      Served w' trace log tails owner := by
  induction trace using List.reverseRecOn with
  | nil =>
    refine ⟨[], w, fun _ => [], 0, rfl, rfl, ?_, fun _ _ => rfl, hw⟩
    exact fun _ => Framer.Frames.of_messages (by decide) (List.forall_mem_nil _)
  | append_singleton trace c ih =>
    obtain ⟨sockfd, buffer⟩ := c
    have hlast : buffer.length ≤ max_recv_buffer_size :=
      hmax (sockfd, buffer) (List.mem_append_right _ List.mem_cons_self)
    have hfits : ∀ fd, w.Fits (bytesOn fd trace) := by
      intro fd
      have h := hs fd
      rw [bytesOn_append] at h
      exact Framer.Announces.take h
    obtain ⟨log, w', tails, owner, hrun, hsz, hserved⟩ :=
      ih (fun c hc => hmax c (List.mem_append_left _ hc)) hfits hmix.left
    by_cases hb : buffer = []
    · subst hb
      refine ⟨log, w', tails, owner, ?_, hsz, hserved.idle⟩
      rw [receiveAll_snoc hrun]
      show some (log ++ [], w') = some (log, w')
      rw [List.append_nil]
    · have howner := hserved.hand_over hmix hb
      have hframes := howner.frames sockfd
      have hlen := (hfits sockfd).tail_length hframes
      have hnext : w'.Fits (tails sockfd ++ buffer) := by
        have h := hs sockfd
        rw [bytesOn_append, bytesOn_self, hframes.spells, List.append_assoc] at h
        rw [Fits, hsz]
        exact Framer.Announces.drop_flatten h hframes.messages
      obtain ⟨ms, left, w'', hp, hf, hw'', hsz'⟩ :=
        process_spec sockfd howner.holds hframes.tail hnext (by omega)
      refine ⟨_, w'', _, sockfd, ?_, hsz'.trans hsz, howner.chunk hf hw''⟩
      rw [receiveAll_snoc hrun, receive, hp]
      rfl

theorem new_size : new.m_size + max_recv_buffer_size + LOOP_BUFFER_EXT_SIZE + ClusterHeader.size < 2 ^ 32 := by
  show ClusterHeader.size + 4 + ClusterHeader.FIELD_MEM_SIZE + 204800 + 1024 * 100 + 8 < 2 ^ 32
  rw [ClusterHeader.size, ClusterHeader.FIELD_MEM_SIZE, ClusterHeader.FIELD_NUM_MAX]
  omega

theorem fits_of_messages {ms : List (List UINT1)}
    (hwf : ∀ m ∈ ms, clusterFramer.Message m ∧ m.length ≤ w.m_size) : w.Fits ms.flatten := by
  have hf := Framer.Frames.of_messages (F := clusterFramer) (by decide) (fun m hm => (hwf m hm).1)
  refine hf.announces ?_ ?_
  · exact fun m hm => ⟨(hwf m hm).1.1, (hwf m hm).2⟩
  · exact fun hh => absurd hh (by decide)

theorem receiveAll_delivers_peers {msgs : INT4 → List (List UINT1)}
    (hmax : ∀ c ∈ trace, c.2.length ≤ max_recv_buffer_size)
    (hwf : ∀ fd, ∀ m ∈ msgs fd, clusterFramer.Message m ∧ m.length ≤ new.m_size)
    (hcut : ∀ fd, bytesOn fd trace = (msgs fd).flatten) (hmix : Unmixed trace) :
    (∃ log w', new.receiveAll trace = some (log, w') ∧ ∀ fd, deliveredOn fd log = msgs fd) ∧
    ∀ k, ∃ log w', new.receiveAll (trace.take k) = some (log, w') ∧
      ∀ fd, ∃ tail, clusterFramer.Frames (bytesOn fd (trace.take k)) (deliveredOn fd log) tail := by
  have hprefix : ∀ k, ∃ log w', new.receiveAll (trace.take k) = some (log, w') ∧
      ∀ fd, ∃ tail, clusterFramer.Frames (bytesOn fd (trace.take k)) (deliveredOn fd log) tail := by
    intro k
    have hfits : ∀ fd, new.Fits (bytesOn fd (trace.take k)) := by
      intro fd
      have h := fits_of_messages (hwf fd)
      rw [← hcut, ← List.take_append_drop k trace, bytesOn_append] at h
      exact Framer.Announces.take h
    have hleft : Unmixed (trace.take k) := by
      rw [← List.take_append_drop k trace] at hmix
      exact hmix.left
    obtain ⟨log, w', tails, owner, hrun, -, hserved⟩ :=
      receiveAll_spec new_holds (fun c hc => hmax c (List.mem_of_mem_take hc)) new_size hfits hleft
    exact ⟨log, w', hrun, fun fd => ⟨tails fd, hserved.frames fd⟩⟩
  refine ⟨?_, hprefix⟩
  obtain ⟨log, w', hrun, hall⟩ := hprefix trace.length
  rw [List.take_length] at hrun hall
  refine ⟨log, w', hrun, ?_⟩
  intro fd
  obtain ⟨tail, hf⟩ := hall fd
  rw [hcut] at hf
  exact (hf.unique (Framer.Frames.of_messages (by decide) (fun m hm => (hwf fd m hm).1))).1

/-- Whoever sends them, the bytes are framed in the order in which they come in. -/
theorem receiveAll_merged (hw : w.Holds []) (hmax : ∀ c ∈ trace, c.2.length ≤ max_recv_buffer_size)
    (hsize : w.m_size + max_recv_buffer_size + LOOP_BUFFER_EXT_SIZE + ClusterHeader.size < 2 ^ 32)
    (hs : w.Fits (trace.map Prod.snd).flatten) :
    ∃ log w' tail, w.receiveAll trace = some (log, w') ∧ w'.m_size = w.m_size ∧ w'.Holds tail ∧
      clusterFramer.Frames (trace.map Prod.snd).flatten (log.map Prod.snd) tail := by
  induction trace using List.reverseRecOn with
  | nil => exact ⟨[], w, [], rfl, rfl, hw, Framer.Frames.of_messages (by decide) (List.forall_mem_nil _)⟩
  | append_singleton trace c ih =>
    obtain ⟨sockfd, buffer⟩ := c
    have hlast : buffer.length ≤ max_recv_buffer_size :=
      hmax (sockfd, buffer) (List.mem_append_right _ List.mem_cons_self)
    have hbytes : ((trace ++ [(sockfd, buffer)]).map Prod.snd).flatten = (trace.map Prod.snd).flatten ++ buffer := by
      rw [List.map_append, List.flatten_append, List.map_singleton, List.flatten_singleton]
    rw [hbytes] at hs ⊢
    have hfits : w.Fits (trace.map Prod.snd).flatten := Framer.Announces.take hs
    obtain ⟨log, w', tail, hrun, hsz, hholds, hframes⟩ :=
      ih (fun c hc => hmax c (List.mem_append_left _ hc)) hfits
    have hlen := hfits.tail_length hframes
    have hnext : w'.Fits (tail ++ buffer) := by
      rw [hframes.spells, List.append_assoc] at hs
      rw [Fits, hsz]
      exact Framer.Announces.drop_flatten hs hframes.messages
    obtain ⟨ms, left, w'', hp, hf, hw'', hsz'⟩ :=
      process_spec sockfd hholds hframes.tail hnext (by omega)
    refine ⟨log ++ ms.map (fun m => (sockfd, m)), w'', left, ?_, hsz'.trans hsz, hw'', ?_⟩
    · rw [receiveAll_snoc hrun, receive, hp]
      rfl
    · have hsnd : (ms.map (fun m => (sockfd, m))).map Prod.snd = ms := by
        rw [List.map_map]
        exact List.map_id ms
      rw [List.map_append, hsnd]
      exact hframes.append hf

def proposal (host : UINT1) : List UINT1 := [0x22, 0, 0, 0, 4, 0, 0, 0, 10, 0, 0, host]

def proposalStreams (fd : INT4) : List (List UINT1) :=
  if fd = 5 then [proposal 1] else if fd = 6 then [proposal 3] else []

def mixedTrace : List (INT4 × List UINT1) :=
  [(5, (proposal 1).take 10), (6, proposal 3), (5, (proposal 1).drop 10)]

def unmixedTrace : List (INT4 × List UINT1) :=
  [(5, (proposal 1).take 10), (5, (proposal 1).drop 10), (6, proposal 3)]

theorem le_new_size {n : ℕ} (hn : n ≤ 2 ^ 20) : n ≤ new.m_size := by
  show n ≤ ClusterHeader.size + 4 + ClusterHeader.FIELD_MEM_SIZE
  rw [ClusterHeader.size, ClusterHeader.FIELD_MEM_SIZE, ClusterHeader.FIELD_NUM_MAX]
  omega

theorem proposalStreams_wellFormed (fd : INT4) :
    ∀ m ∈ proposalStreams fd, clusterFramer.Message m ∧ m.length ≤ new.m_size := by
  have hlen : ∀ host, (proposal host).length = 12 := fun _ => rfl
  have hall : ∀ host, clusterFramer.Message (proposal host) ∧ (proposal host).length ≤ new.m_size := by
    intro host
    exact ⟨⟨by rw [hlen]; decide, rfl⟩, le_new_size (by rw [hlen]; decide)⟩
  intro m hm
  by_cases h5 : fd = 5
  · subst h5
    rw [List.mem_singleton.1 hm]
    apply hall
  · by_cases h6 : fd = 6
    · subst h6
      rw [List.mem_singleton.1 hm]
      apply hall
    · rw [proposalStreams, if_neg h5, if_neg h6] at hm
      cases hm

theorem proposalStreams_cut (hall : ∀ c ∈ trace, c.1 = 5 ∨ c.1 = 6) (h5 : bytesOn 5 trace = (proposalStreams 5).flatten)
    (h6 : bytesOn 6 trace = (proposalStreams 6).flatten) (fd : INT4) :
    bytesOn fd trace = (proposalStreams fd).flatten := by
  by_cases hf5 : fd = 5
  · rw [hf5, h5]
  · by_cases hf6 : fd = 6
    · rw [hf6, h6]
    · have hnone : trace.filter (fun c => c.1 = fd) = [] := by
        apply List.filter_eq_nil_iff.2
        intro c hc he
        rcases hall c hc with h | h
        · exact hf5 ((of_decide_eq_true he).symm.trans h)
        · exact hf6 ((of_decide_eq_true he).symm.trans h)
      rw [bytesOn, hnone, proposalStreams, if_neg hf5, if_neg hf6]
      rfl

theorem unmixedTrace_unmixed : Unmixed unmixedTrace := by
  intro pre post fd buffer ht hb fd' hf
  rcases pre with _ | ⟨c₀, _ | ⟨c₁, _ | ⟨c₂, pre⟩⟩⟩
  · exact ⟨[], List.forall_mem_nil _, rfl⟩
  · simp only [unmixedTrace, List.cons_append, List.nil_append, List.cons.injEq, Prod.mk.injEq] at ht
    obtain ⟨rfl, ⟨rfl, -⟩, -⟩ := ht
    exact ⟨[], List.forall_mem_nil _, bytesOn_other hf _⟩
  · simp only [unmixedTrace, List.cons_append, List.nil_append, List.cons.injEq, Prod.mk.injEq] at ht
    obtain ⟨rfl, rfl, ⟨rfl, -⟩, -⟩ := ht
    by_cases h5 : fd' = 5
    · subst h5
      exact ⟨[proposal 1], List.forall_mem_singleton.2 ⟨by decide, by decide⟩, by decide⟩
    · exact ⟨[], List.forall_mem_nil _, by simp [bytesOn, Ne.symm h5]⟩
  · simp [unmixedTrace] at ht

theorem unmixedTrace_delivered : ∃ log w', new.receiveAll unmixedTrace = some (log, w') ∧
    deliveredOn 5 log = [proposal 1] ∧ deliveredOn 6 log = [proposal 3] := by
  have hcut : ∀ fd, bytesOn fd unmixedTrace = (proposalStreams fd).flatten :=
    proposalStreams_cut (by decide) (by decide) (by decide)
  obtain ⟨⟨log, w', hrun, hall⟩, -⟩ :=
    receiveAll_delivers_peers (by decide) proposalStreams_wellFormed hcut unmixedTrace_unmixed
  exact ⟨log, w', hrun, hall 5, hall 6⟩

theorem mixedTrace_frames : clusterFramer.Frames (mixedTrace.map Prod.snd).flatten
    [(proposal 1).take 10 ++ (proposal 3).take 2] ((proposal 3).drop 2 ++ (proposal 1).drop 10) := by
  refine ⟨by decide, ?_, fun _ => ⟨by decide, by decide⟩⟩
  intro m hm
  rw [List.mem_singleton.1 hm]
  exact ⟨by decide, by decide⟩

theorem mixedTrace_not_delivered : ¬∃ log w', new.receiveAll mixedTrace = some (log, w') ∧
    ∀ fd, deliveredOn fd log = proposalStreams fd := by
  rintro ⟨log, w', hrun, hall⟩
  have hfits : new.Fits (mixedTrace.map Prod.snd).flatten := by
    refine mixedTrace_frames.announces ?_ ?_
    · intro m hm
      rw [List.mem_singleton.1 hm]
      exact ⟨by decide, le_new_size (by decide)⟩
    · exact fun _ => ⟨by decide, le_new_size (by decide)⟩
  obtain ⟨log', w'', tail, hrun', -, -, hf⟩ := receiveAll_merged new_holds (by decide) new_size hfits
  cases hrun.symm.trans hrun'
  have hone := (hf.unique mixedTrace_frames).1
  have hmem : proposal 1 ∈ deliveredOn 5 log := by
    rw [hall 5]
    exact List.mem_cons_self
  obtain ⟨msg, hmsg, hp⟩ := List.mem_map.1 hmem
  have hmem' : proposal 1 ∈ log.map Prod.snd := List.mem_map.2 ⟨msg, (List.mem_filter.1 hmsg).1, hp⟩
  rw [hone, List.mem_singleton] at hmem'
  exact absurd hmem' (by decide)

end CClusterRecvWorker

end DCFabric
