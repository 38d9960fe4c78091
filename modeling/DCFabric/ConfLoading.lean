import DCFabric.CConf

namespace DCFabric

open LoopRuns

namespace CConf

/-- No 256 bytes in a row are without a newline. -/
def LinesFit (content : List UINT1) : Prop := ∀ line, line <:+: content → NEWLINE ∉ line → line.length < 256

/-- Each pass of the loop consumes a byte, or comes to the end of the file. -/
def Progresses (content : List UINT1) : Prop :=
  ∀ es file s, Passes loadPass (⟨content, false, false⟩, .start) es (file, s) →
    ∀ e file' s', loadPass (file, s) = .next e (file', s') →
      file'.rest.length < file.rest.length ∨ file'.eof = true

/-- The three ways in which `getline` stops, with what it leaves of the file. -/
inductive Stops : List UINT1 → ifstream → Prop
  | eof {line : List UINT1} (hline : NEWLINE ∉ line) (hlen : line.length < 256) : Stops line ⟨[], true, line = []⟩
  | newline {line rest : List UINT1} (hline : NEWLINE ∉ line) (hlen : line.length < 256) :
      Stops (line ++ NEWLINE :: rest) ⟨rest, false, false⟩
  | full {line rest : List UINT1} {c : UINT1} (hline : NEWLINE ∉ line ++ [c]) (hlen : line.length = 255) :
      Stops (line ++ c :: rest) ⟨c :: rest, false, true⟩

variable {line rest content : List UINT1} {file : ifstream} {s : Loading} {c : UINT1}

theorem infix_line (h : line <:+: content ++ c :: rest) (hc : c ∉ line) : line <:+: content ∨ line <:+: rest := by
  have hnil : ∀ {l : List UINT1}, l <+: c :: rest → c ∉ l → l = [] := by
    intro l hl hmem
    rcases List.prefix_cons_iff.mp hl with hl | ⟨t, rfl, -⟩
    · exact hl
    · exact absurd List.mem_cons_self hmem
  rcases List.infix_append_iff.mp h with h | h | ⟨l, t, rfl, hl, ht⟩
  · exact .inl h
  · rcases List.infix_cons_iff.mp h with h | h
    · rw [hnil h hc]
      exact .inl List.nil_infix
    · exact .inr h
  · rw [hnil ht fun hmem => hc (List.mem_append_right l hmem), List.append_nil]
    exact .inl hl.isInfix

theorem LinesFit.of_length_lt (h : content.length < 256) : LinesFit content :=
  fun _ hline _ => hline.length_le.trans_lt h

theorem linesFit_line (hline : NEWLINE ∉ line) :
    LinesFit (line ++ NEWLINE :: rest) ↔ line.length < 256 ∧ LinesFit rest := by
  constructor
  · intro h
    refine ⟨h line (List.infix_append' [] line _) hline, fun l hl => h l ?_⟩
    exact hl.trans (List.suffix_append_of_suffix (List.suffix_cons _ _)).isInfix
  · rintro ⟨hlen, hrest⟩ l hl hmem
    rcases infix_line hl hmem with hl | hl
    · exact hl.length_le.trans_lt hlen
    · exact hrest l hl hmem

theorem getline_stops (rest : List UINT1) : Stops rest ((⟨rest, false, false⟩ : ifstream).getline 256).2 := by
  simp only [ifstream.getline, Bool.or_self, Bool.false_eq_true, if_false, Nat.reduceSub]
  set text := rest.takeWhile (· ≠ NEWLINE) with htext
  have hnewline : NEWLINE ∉ text.take 255 := by
    intro hmem
    simpa using List.mem_takeWhile_imp (List.mem_of_mem_take hmem)
  have hlen : (text.take 255).length ≤ 255 := List.length_take_le 255 text
  have hsplit : text.take 255 ++ rest.drop (text.take 255).length = rest :=
    (List.prefix_append_drop <| (List.take_prefix 255 text).trans (List.takeWhile_prefix _)).symm
  cases hdrop : rest.drop (text.take 255).length with
  | nil =>
    rw [hdrop, List.append_nil] at hsplit
    dsimp only
    rw [hsplit] at hnewline hlen ⊢
    exact .eof hnewline (by omega)
  | cons c rest' =>
    rw [hdrop] at hsplit
    dsimp only
    by_cases hc : c = NEWLINE
    · rw [if_pos hc, ← hsplit, hc]
      exact .newline hnewline (by omega)
    · rw [if_neg hc]
      have hfull : (text.take 255).length = 255 := by
        by_contra hshort
        have hall : text.take 255 = text := List.take_of_length_le (by rw [List.length_take] at hshort; omega)
        have hend : rest.dropWhile (· ≠ NEWLINE) = c :: rest' := by
          rw [hall] at hsplit
          exact List.append_cancel_left (List.takeWhile_append_dropWhile.trans hsplit.symm)
        have hhead := List.head?_dropWhile_not (fun c => decide (c ≠ NEWLINE)) rest
        rw [hend] at hhead
        exact hc (by simpa using hhead)
      have hnext : NEWLINE ∉ text.take 255 ++ [c] := by
        rw [List.mem_append, List.mem_singleton]
        exact not_or.mpr ⟨hnewline, Ne.symm hc⟩
      conv_lhs => rw [← hsplit]
      exact .full hnext hfull

theorem exists_pass (rest : List UINT1) (s : Loading) :
    ∃ file s', Stops rest file ∧ loadPass (⟨rest, false, false⟩, s) = .next () (file, s') :=
  ⟨_, _, getline_stops rest, rfl⟩

theorem loadPass_ne_fault (p : ifstream × Loading) : loadPass p ≠ .fault := by
  simp only [loadPass]
  split_ifs
  · intro h
    cases h
  · intro h
    cases h

/-- What holds before a pass when every line fits. -/
def Reading (p : ifstream × Loading) : Prop := p.1.eof = false → p.1.fail = false ∧ LinesFit p.1.rest

theorem Stops.of_linesFit (h : Stops rest file) (hfit : LinesFit rest) :
    file.eof = true ∨ file.eof = false ∧ file.fail = false ∧ LinesFit file.rest ∧ file.rest.length < rest.length := by
  cases h with
  | eof hline hlen => exact .inl rfl
  | @newline line rest hline hlen =>
    refine .inr ⟨rfl, rfl, ((linesFit_line hline).mp hfit).2, ?_⟩
    rw [List.length_append, List.length_cons]
    dsimp only
    omega
  | @full line rest c hline hlen =>
    have hinfix : line ++ [c] <:+: line ++ c :: rest := ⟨[], rest, by simp⟩
    have hlt := hfit (line ++ [c]) hinfix hline
    rw [List.length_append, hlen, List.length_singleton] at hlt
    exact absurd hlt (by decide)

theorem Reading.pass {p t : ifstream × Loading} {e : Unit} (h : Reading p) (hpass : loadPass p = .next e t) :
    Reading t ∧ (t.1.rest.length < p.1.rest.length ∨ t.1.eof = true) := by
  obtain ⟨⟨rest, eof, fail⟩, s⟩ := p
  cases eof with
  | true => cases hpass
  | false =>
    obtain ⟨rfl, hfit⟩ := h rfl
    obtain ⟨file, s', hstops, hnext⟩ := exists_pass rest s
    obtain ⟨-, rfl⟩ := Pass.next.inj (hnext.symm.trans hpass)
    rcases hstops.of_linesFit hfit with heof | ⟨heof, hfail, hrest, hlt⟩
    · exact ⟨fun hmore => absurd (heof.symm.trans hmore) (by decide), .inr heof⟩
    · exact ⟨fun _ => ⟨hfail, hrest⟩, .inl hlt⟩

theorem LinesFit.progresses (h : LinesFit content) : Progresses content := by
  intro es file s hpasses e file' s' hpass
  have hreading : Reading (file, s) :=
    hpasses.invariant (fun _ _ _ hr hp => (hr.pass hp).1) (fun _ => ⟨rfl, h⟩)
  exact (hreading.pass hpass).2

/-- The bytes that are left bring the loop to its end, and the end of the file counts less than none. -/
theorem Progresses.loads (h : Progresses content) : ∃ m_blocks, Loads content m_blocks := by
  let start : ifstream × Loading := (⟨content, false, false⟩, .start)
  let left : ifstream × Loading → ℕ := fun p => if p.1.eof then 0 else p.1.rest.length + 1
  have hnext : ∀ p e t, (∃ es, Passes loadPass start es p) → loadPass p = .next e t →
      (∃ es, Passes loadPass start es t) ∧ left t < left p := by
    rintro ⟨file, s⟩ e ⟨file', s'⟩ ⟨es, hpasses⟩ hpass
    refine ⟨⟨es ++ [e], hpasses.concat hpass⟩, ?_⟩
    have hmore : file.eof = false := by
      by_contra heof
      rw [loadPass, if_pos (by simpa using heof)] at hpass
      cases hpass
    simp only [left, hmore, Bool.false_eq_true, if_false]
    rcases h es file s hpasses e file' s' hpass with hlt | heof
    · split_ifs
      · omega
      · omega
    · rw [if_pos heof]
      omega
  obtain ⟨es, m_blocks, hends⟩ := ends_of_measure left (fun p _ => loadPass_ne_fault p) hnext ⟨[], .refl⟩
  exact ⟨m_blocks, es, hends⟩

/-- Once `failbit` is set, `getline` extracts nothing and does not set `eofbit`. -/
theorem not_ends_of_fail {es : List Unit} {m_blocks : List CConfigBlock} :
    ¬Ends loadPass (⟨rest, false, true⟩, s) es m_blocks := by
  apply not_ends_of_next (I := fun p => p.1.eof = false ∧ p.1.fail = true)
  · rintro ⟨⟨rest, eof, fail⟩, s⟩ ⟨rfl, rfl⟩
    exact ⟨(), _, rfl, rfl, rfl⟩
  · exact ⟨rfl, rfl⟩

theorem linesFit_of_ends {es : List Unit} {m_blocks : List CConfigBlock}
    (h : Ends loadPass (⟨rest, false, false⟩, s) es m_blocks) : LinesFit rest := by
  induction es generalizing rest s with
  | nil =>
    cases h with
    | leave h => cases h
  | cons e es ih =>
    obtain ⟨file, s', hstops, hpass⟩ := exists_pass rest s
    obtain ⟨es', hes, ht⟩ := h.of_next hpass
    obtain ⟨-, rfl⟩ := List.cons.inj hes
    cases hstops with
    | eof hline hlen => exact .of_length_lt hlen
    | newline hline hlen => exact (linesFit_line hline).mpr ⟨hlen, ih ht⟩
    | full hline hlen => exact absurd ht not_ends_of_fail

theorem loadConf_ends_iff (content : List UINT1) :
    ((∃ m_blocks, Loads content m_blocks) ↔ LinesFit content) ∧ (Progresses content ↔ LinesFit content) := by
  have hloads : (∃ m_blocks, Loads content m_blocks) → LinesFit content :=
    fun ⟨_, _, hends⟩ => linesFit_of_ends hends
  refine ⟨⟨hloads, fun h => h.progresses.loads⟩, ⟨fun h => hloads h.loads, fun h => h.progresses⟩⟩

/-- A comment of 256 bytes. -/
def longComment : List UINT1 := List.replicate 256 NUMBER_SIGN

theorem longComment_not_ends : ¬((∃ m_blocks, Loads longComment m_blocks) ∨ Progresses longComment) := by
  have hlong : ¬LinesFit longComment := by
    intro hfit
    have hnewline : NEWLINE ∉ longComment := fun hmem => absurd (List.eq_of_mem_replicate hmem) (by decide)
    have hlt := hfit longComment (List.infix_refl _) hnewline
    rw [longComment, List.length_replicate] at hlt
    exact lt_irrefl 256 hlt
  rintro (⟨_, _, hends⟩ | hprogresses)
  · exact hlong (linesFit_of_ends hends)
  · obtain ⟨_, _, hends⟩ := hprogresses.loads
    exact hlong (linesFit_of_ends hends)

end CConf

end DCFabric
