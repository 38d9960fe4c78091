import DCFabric.CConf

namespace DCFabric

open TlvStreams CConf

structure ini_item_t where
  name : List UINT1
  value : List UINT1
  /-- The bytes of text that the memory behind `value` has room for. -/
  room : ℕ
  comments : List (List UINT1)
deriving DecidableEq

structure ini_selection_t where
  selection : List UINT1
  comments : List (List UINT1)
  ini_items : List ini_item_t
deriving DecidableEq

/-- The list `selections` of a file, from the front. -/
abbrev ini_file_t := List ini_selection_t

namespace Ini

def SEMICOLON : UINT1 := 0x3b

/-- The bytes that `fgets(buf, 1023, fp)` reads at most. -/
def LINE_ROOM : ℕ := 1022

/-- What `fgets` puts into `buf` in call after call: `chunk` has the bytes of the call under way, the last one first,
and `room` tells how many more it takes. -/
def chunks : ℕ → List UINT1 → List UINT1 → List (List UINT1)
  | _, chunk, [] => if chunk = [] then [] else [chunk.reverse]
  | room, chunk, c :: cs =>
    if c = NEWLINE ∨ room = 1 then (c :: chunk).reverse :: chunks LINE_ROOM [] cs else chunks (room - 1) (c :: chunk) cs

/-- The text of `buf`, with the loop that ends it at the first end of a line. -/
def cutLine (buf : List UINT1) : List UINT1 := (cstring buf).takeWhile fun c => c ≠ NEWLINE ∧ c ≠ CARRIAGE_RETURN

/-- The local variables of `read_ini`. `sec` is the last of the selections. -/
structure Reading where
  selections : ini_file_t
  comm_list : List (List UINT1)

def strdupItem (name value : List UINT1) (comments : List (List UINT1)) : ini_item_t :=
  ⟨name, value, value.length, comments⟩

def addItem (selections : ini_file_t) (item : ini_item_t) : Option ini_file_t :=
  match selections.getLast? with
  | none => none
  | some sec => some (selections.dropLast ++ [{ sec with ini_items := sec.ini_items ++ [item] }])

/-- The `switch` over the first byte of a line, with `none` for the way to `EXCEPTION_EXIT`. The search for the `=`
passes over the first byte. -/
def readLine (s : Reading) (buf : List UINT1) : Option Reading :=
  match cutLine buf with
  | [] => some s
  | c :: rest =>
    if c = NUMBER_SIGN ∨ c = SEMICOLON then some { s with comm_list := s.comm_list ++ [c :: rest] }
    else if c = LEFT_BRACKET then
      some ⟨s.selections ++ [⟨c :: rest, s.comm_list, []⟩], []⟩
    else if EQUALS_SIGN ∈ rest then
      let item := strdupItem (c :: rest.takeWhile (· ≠ EQUALS_SIGN)) ((rest.dropWhile (· ≠ EQUALS_SIGN)).drop 1)
        s.comm_list
      (addItem s.selections item).map fun selections => ⟨selections, []⟩
    else none

def readLines (s : Reading) (bufs : List (List UINT1)) : Option Reading := bufs.foldlM readLine s

/-- `content` is that of the file. -/
def read_ini (content : List UINT1) : Option ini_file_t :=
  (readLines ⟨[], []⟩ (chunks LINE_ROOM [] content)).map (·.selections)

def get_value (ini_file : ini_file_t) (selection item : List UINT1) : Option (List UINT1) :=
  match ini_file.find? (·.selection = selection) with
  | none => none
  | some sec => (sec.ini_items.find? (·.name = item)).map (·.value)

/-- The first item of the name takes the value. -/
def storeValue (item value : List UINT1) : List ini_item_t → List ini_item_t
  | [] => []
  | it :: items => if it.name = item then { it with value := value } :: items else it :: storeValue item value items

/-- The second loop of `set_value`, with what it returns. It is undefined when `strcpy` writes behind the memory of the
old value. -/
def setLoop (selection item value : List UINT1) : ini_file_t → Option (ℕ × ini_file_t)
  | [] => some (0, [])
  | sec :: rest =>
    if sec.selection = selection then
      match sec.ini_items.find? (·.name = item) with
      | some it =>
        if value.length ≤ it.room then
          some (1, { sec with ini_items := storeValue item value sec.ini_items } :: rest)
        else none
      | none =>
        let sec := { sec with ini_items := sec.ini_items ++ [strdupItem item value []] }
        (setLoop selection item value rest).map fun (ret, rest) => (ret, sec :: rest)
    else (setLoop selection item value rest).map fun (ret, rest) => (ret, sec :: rest)

/-- The first loop of `set_value`: a new selection is appended when there is none of the name. -/
def withSelection (ini_file : ini_file_t) (selection : List UINT1) : ini_file_t :=
  if ini_file.any (·.selection = selection) then ini_file else ini_file ++ [⟨selection, [], []⟩]

def set_value (ini_file : ini_file_t) (selection item value : List UINT1) : Option (ℕ × ini_file_t) :=
  setLoop selection item value (withSelection ini_file selection)

def remove_selection (ini_file : ini_file_t) (selection : List UINT1) : ℕ × ini_file_t :=
  (if ini_file.any (·.selection = selection) then 1 else 0, ini_file.eraseP (·.selection = selection))

def itemLine (item : ini_item_t) : List UINT1 := item.name ++ EQUALS_SIGN :: item.value

def savedItem (item : ini_item_t) : List (List UINT1) := item.comments ++ [itemLine item]

def savedSelection (sec : ini_selection_t) : List (List UINT1) :=
  sec.comments ++ sec.selection :: sec.ini_items.flatMap savedItem ++ [[]]

def savedLines (doc : ini_file_t) : List (List UINT1) := doc.flatMap savedSelection

/-- The bytes that `save_ini` writes. It is undefined when a line with its newline does not fit `buf[1024]`. -/
def savedFile (doc : ini_file_t) : Option (List UINT1) :=
  if ∀ sec ∈ doc, ∀ item ∈ sec.ini_items, (itemLine item).length + 1 < 1024 then
    some ((savedLines doc).flatMap (· ++ [NEWLINE]))
  else none

/-- The file is read again, and the old document is closed. -/
def save_ini (doc : ini_file_t) : Option ini_file_t := (savedFile doc).bind read_ini

/-- The bytes of a line as it is written and read. -/
structure Clean (line : List UINT1) : Prop where
  nul : ∀ c ∈ line, c ≠ 0
  ends : ∀ c ∈ line, c ≠ NEWLINE ∧ c ≠ CARRIAGE_RETURN
  length : line.length ≤ LINE_ROOM

structure IsComment (line : List UINT1) : Prop where
  clean : Clean line
  head : ∃ c rest, line = c :: rest ∧ (c = NUMBER_SIGN ∨ c = SEMICOLON)

/-- The name and the value of an item: the line reads as an item, and its first `=` behind the first byte ends the
name. -/
structure IsEntry (name value : List UINT1) : Prop where
  clean : Clean (name ++ EQUALS_SIGN :: value)
  head : ∃ c rest, name = c :: rest ∧ c ≠ NUMBER_SIGN ∧ c ≠ SEMICOLON ∧ c ≠ LEFT_BRACKET ∧ EQUALS_SIGN ∉ rest

structure IsSelection (line : List UINT1) : Prop where
  clean : Clean line
  head : ∃ rest, line = LEFT_BRACKET :: rest

structure Printable (sec : ini_selection_t) : Prop where
  selection : IsSelection sec.selection
  comments : ∀ line ∈ sec.comments, IsComment line
  items : ∀ item ∈ sec.ini_items, IsEntry item.name item.value ∧ ∀ line ∈ item.comments, IsComment line

section

variable {line chunk : List UINT1} {rest : List UINT1} {s : Reading} {room : ℕ}

theorem chunks_short (hline : ∀ c ∈ line, c ≠ NEWLINE) (hlen : line.length < room) :
    chunks room chunk (line ++ NEWLINE :: rest) =
      (chunk.reverse ++ line ++ [NEWLINE]) :: chunks LINE_ROOM [] rest := by
  induction line generalizing room chunk with
  | nil => simp [chunks]
  | cons c line ih =>
    obtain ⟨hc, hline⟩ := List.forall_mem_cons.mp hline
    rw [List.length_cons] at hlen
    have hroom : room ≠ 1 := by omega
    rw [List.cons_append, chunks, if_neg (by simp [hc, hroom]), ih hline (by omega)]
    simp

theorem chunks_full (hline : ∀ c ∈ line, c ≠ NEWLINE) (hlen : line.length = room) (hroom : 0 < room) :
    chunks room chunk (line ++ rest) = (chunk.reverse ++ line) :: chunks LINE_ROOM [] rest := by
  induction line generalizing room chunk with
  | nil => simp only [List.length_nil] at hlen; omega
  | cons c line ih =>
    obtain ⟨hc, hline⟩ := List.forall_mem_cons.mp hline
    rw [List.length_cons] at hlen
    by_cases hone : room = 1
    · obtain rfl : line = [] := List.eq_nil_of_length_eq_zero (by omega)
      simp [chunks, hone]
    · rw [List.cons_append, chunks, if_neg (by simp [hc, hone]), ih hline (by omega) (by omega)]
      simp

theorem cutLine_clean (h : Clean line) : cutLine line = line := by
  rw [cutLine, cstring_eq h.nul]
  exact List.takeWhile_eq_self_iff.mpr fun c hc => by simpa using h.ends c hc

theorem cutLine_newline (h : Clean line) : cutLine (line ++ [NEWLINE]) = line := by
  have hnul : ∀ c ∈ line ++ [NEWLINE], c ≠ 0 := by
    intro c hc
    obtain hc | hc := List.mem_append.mp hc
    · exact h.nul c hc
    · rw [List.mem_singleton.mp hc]
      decide
  rw [cutLine, cstring_eq hnul, List.takeWhile_append_of_pos fun c hc => by simpa using h.ends c hc]
  simp

theorem readLines_cons {buf : List UINT1} {bufs : List (List UINT1)} :
    readLines s (buf :: bufs) = (readLine s buf).bind fun t => readLines t bufs := List.foldlM_cons

/-- A line that fills the buffer is read with an empty one after it. -/
theorem readLines_line (h : Clean line) :
    readLines s (chunks LINE_ROOM [] (line ++ NEWLINE :: rest)) =
      (readLine s line).bind fun t => readLines t (chunks LINE_ROOM [] rest) := by
  have hends : ∀ c ∈ line, c ≠ NEWLINE := fun c hc => (h.ends c hc).1
  obtain hlt | heq := h.length.lt_or_eq
  · have hsame : readLine s (line ++ [NEWLINE]) = readLine s line := by
      rw [readLine, readLine, cutLine_newline h, cutLine_clean h]
    rw [chunks_short hends hlt, readLines_cons, List.reverse_nil, List.nil_append, hsame]
  · have hempty (t : Reading) : readLine t [NEWLINE] = some t := rfl
    have hrest : chunks LINE_ROOM [] (NEWLINE :: rest) = [NEWLINE] :: chunks LINE_ROOM [] rest := by simp [chunks]
    rw [chunks_full hends heq (by decide), readLines_cons, List.reverse_nil, List.nil_append, hrest]
    simp only [readLines_cons, hempty, Option.bind_some]

theorem readLines_lines {lines : List (List UINT1)} (h : ∀ line ∈ lines, Clean line) :
    readLines s (chunks LINE_ROOM [] (lines.flatMap (· ++ [NEWLINE]))) = readLines s lines := by
  induction lines generalizing s with
  | nil => rfl
  | cons line lines ih =>
    obtain ⟨hline, hlines⟩ := List.forall_mem_cons.mp h
    rw [List.flatMap_cons, List.append_assoc, List.singleton_append, readLines_line hline, readLines_cons]
    congr 1
    funext t
    exact ih hlines

end

section

variable {front : ini_file_t} {sec : ini_selection_t} {comments : List (List UINT1)} {name value : List UINT1}

theorem readLine_comment {line : List UINT1} {s : Reading} (h : IsComment line) :
    readLine s line = some { s with comm_list := s.comm_list ++ [line] } := by
  obtain ⟨c, rest, rfl, hc⟩ := h.head
  simp [readLine, cutLine_clean h.clean, hc]

theorem readLines_comments {lines : List (List UINT1)} {s : Reading} (h : ∀ line ∈ lines, IsComment line) :
    readLines s lines = some { s with comm_list := s.comm_list ++ lines } := by
  induction lines generalizing s with
  | nil => simp [readLines]
  | cons line lines ih =>
    obtain ⟨hline, hlines⟩ := List.forall_mem_cons.mp h
    rw [readLines_cons, readLine_comment hline, Option.bind_some, ih hlines]
    simp

theorem readLine_selection {line : List UINT1} {s : Reading} (h : IsSelection line) :
    readLine s line = some ⟨s.selections ++ [⟨line, s.comm_list, []⟩], []⟩ := by
  obtain ⟨rest, rfl⟩ := h.head
  have hnumber : LEFT_BRACKET ≠ NUMBER_SIGN := by decide
  have hsemicolon : LEFT_BRACKET ≠ SEMICOLON := by decide
  simp [readLine, cutLine_clean h.clean, hnumber, hsemicolon]

theorem addItem_concat {item : ini_item_t} :
    addItem (front ++ [sec]) item = some (front ++ [{ sec with ini_items := sec.ini_items ++ [item] }]) := by
  simp [addItem]

theorem readLine_entry (h : IsEntry name value) :
    readLine ⟨front ++ [sec], comments⟩ (name ++ EQUALS_SIGN :: value) =
      some ⟨front ++ [{ sec with ini_items := sec.ini_items ++ [strdupItem name value comments] }], []⟩ := by
  obtain ⟨c, rest, rfl, hnumber, hsemicolon, hbracket, heq⟩ := h.head
  have hsplit := takeWhile_of_notMem rest value heq
  have hmem : EQUALS_SIGN ∈ rest ++ EQUALS_SIGN :: value := List.mem_append_right _ List.mem_cons_self
  rw [readLine, cutLine_clean h.clean]
  dsimp only [List.cons_append]
  rw [if_neg (by simp [hnumber, hsemicolon]), if_neg hbracket, if_pos hmem, hsplit.1, hsplit.2, addItem_concat]
  rfl

end

section

variable {front doc : ini_file_t} {sec : ini_selection_t} {item : ini_item_t} {name value : List UINT1} {s : Reading}

/-- What reading makes of a document: each value gets memory of its own. -/
def freshItem (item : ini_item_t) : ini_item_t := { item with room := item.value.length }

def freshSelection (sec : ini_selection_t) : ini_selection_t :=
  { sec with ini_items := sec.ini_items.map freshItem }

def fresh (doc : ini_file_t) : ini_file_t := doc.map freshSelection

theorem readLines_append {bufs bufs' : List (List UINT1)} :
    readLines s (bufs ++ bufs') = (readLines s bufs).bind fun t => readLines t bufs' := List.foldlM_append

theorem readLines_item (h : IsEntry item.name item.value) (hcomments : ∀ line ∈ item.comments, IsComment line) :
    readLines ⟨front ++ [sec], []⟩ (savedItem item) =
      some ⟨front ++ [{ sec with ini_items := sec.ini_items ++ [freshItem item] }], []⟩ := by
  rw [savedItem, readLines_append, readLines_comments hcomments, Option.bind_some, readLines_cons, itemLine,
    List.nil_append, readLine_entry h]
  rfl

theorem readLines_items {items : List ini_item_t}
    (h : ∀ item ∈ items, IsEntry item.name item.value ∧ ∀ line ∈ item.comments, IsComment line) :
    readLines ⟨front ++ [sec], []⟩ (items.flatMap savedItem) =
      some ⟨front ++ [{ sec with ini_items := sec.ini_items ++ items.map freshItem }], []⟩ := by
  induction items generalizing sec with
  | nil => simp [readLines]
  | cons item items ih =>
    obtain ⟨⟨hentry, hcomments⟩, hitems⟩ := List.forall_mem_cons.mp h
    rw [List.flatMap_cons, readLines_append, readLines_item hentry hcomments, Option.bind_some, ih hitems]
    simp

theorem readLines_selection (h : Printable sec) :
    readLines ⟨front, []⟩ (savedSelection sec) = some ⟨front ++ [freshSelection sec], []⟩ := by
  have hempty (t : Reading) : readLines t [[]] = some t := rfl
  rw [savedSelection, readLines_append, readLines_append, readLines_comments h.comments, Option.bind_some, readLines_cons,
    readLine_selection h.selection, Option.bind_some, List.nil_append, readLines_items h.items, Option.bind_some, hempty]
  rfl

theorem readLines_doc (h : ∀ sec ∈ doc, Printable sec) :
    readLines ⟨front, []⟩ (savedLines doc) = some ⟨front ++ fresh doc, []⟩ := by
  induction doc generalizing front with
  | nil => simp [readLines, savedLines, fresh]
  | cons sec doc ih =>
    obtain ⟨hsec, hdoc⟩ := List.forall_mem_cons.mp h
    have htail : readLines ⟨front ++ [freshSelection sec], []⟩ (doc.flatMap savedSelection) =
        some ⟨front ++ [freshSelection sec] ++ fresh doc, []⟩ := ih hdoc
    rw [savedLines, List.flatMap_cons, readLines_append, readLines_selection hsec, Option.bind_some, htail]
    simp [fresh]

theorem clean_nil : Clean [] := ⟨List.forall_mem_nil _, List.forall_mem_nil _, Nat.zero_le _⟩

theorem Printable.clean (h : Printable sec) : ∀ line ∈ savedSelection sec, Clean line := by
  intro line hline
  simp only [savedSelection, List.mem_append, List.mem_cons, List.mem_flatMap, List.not_mem_nil, or_false] at hline
  obtain (hline | rfl | ⟨item, hitem, hline⟩) | rfl := hline
  · exact (h.comments line hline).clean
  · exact h.selection.clean
  · obtain ⟨hentry, hcomments⟩ := h.items item hitem
    obtain hline | hline := List.mem_append.mp hline
    · exact (hcomments line hline).clean
    · rw [List.mem_singleton.mp hline]
      exact hentry.clean
  · exact clean_nil

/-- A document that can be printed is saved, and the file is read as the same document. -/
theorem save_printable (h : ∀ sec ∈ doc, Printable sec) : save_ini doc = some (fresh doc) := by
  have hfit : ∀ sec ∈ doc, ∀ item ∈ sec.ini_items, (itemLine item).length + 1 < 1024 := by
    intro sec hsec item hitem
    have hlen := ((h sec hsec).items item hitem).1.clean.length
    unfold LINE_ROOM at hlen
    unfold itemLine
    omega
  have hclean : ∀ line ∈ savedLines doc, Clean line := by
    intro line hline
    obtain ⟨sec, hsec, hline⟩ := List.mem_flatMap.mp hline
    exact (h sec hsec).clean line hline
  have hdoc : readLines ⟨[], []⟩ (savedLines doc) = some ⟨[] ++ fresh doc, []⟩ := readLines_doc h
  rw [save_ini, savedFile, if_pos hfit, Option.bind_some, read_ini, readLines_lines hclean, hdoc]
  rfl

end

section

variable {doc : ini_file_t} {s t : Reading} {buf : List UINT1}

theorem length_chunks {content : List UINT1} {room : ℕ} {chunk : List UINT1} (hroom : 0 < room)
    (hchunk : room + chunk.length = LINE_ROOM) : ∀ buf ∈ chunks room chunk content, buf.length ≤ LINE_ROOM := by
  induction content generalizing room chunk with
  | nil =>
    intro buf hbuf
    rw [chunks] at hbuf
    split_ifs at hbuf
    · cases hbuf
    · rw [List.mem_singleton.mp hbuf, List.length_reverse]
      omega
  | cons c cs ih =>
    rw [chunks]
    split_ifs with hc
    · rw [List.forall_mem_cons]
      refine ⟨?_, ih (by decide) rfl⟩
      rw [List.length_reverse, List.length_cons]
      omega
    · exact ih (by omega) (by rw [List.length_cons]; omega)

theorem clean_cutLine (h : buf.length ≤ LINE_ROOM) : Clean (cutLine buf) where
  nul := by
    intro c hc
    have htext : c ∈ cstring buf := (List.takeWhile_prefix _).subset hc
    simpa using List.mem_takeWhile_imp htext
  ends := by
    intro c hc
    simpa using List.mem_takeWhile_imp hc
  length := by
    have htext : (cutLine buf).length ≤ (cstring buf).length := (List.takeWhile_prefix _).length_le
    exact (htext.trans (List.takeWhile_prefix _).length_le).trans h

/-- What has been read can be printed as it stands. -/
structure Reads (s : Reading) : Prop where
  printable : ∀ sec ∈ s.selections, Printable sec
  own : fresh s.selections = s.selections
  comments : ∀ line ∈ s.comm_list, IsComment line

theorem reads_nil : Reads ⟨[], []⟩ := ⟨List.forall_mem_nil _, rfl, List.forall_mem_nil _⟩

theorem Reads.comment {line : List UINT1} (h : Reads s) (hline : IsComment line) :
    Reads { s with comm_list := s.comm_list ++ [line] } where
  printable := h.printable
  own := h.own
  comments := by
    intro l hl
    obtain hl | hl := List.mem_append.mp hl
    · exact h.comments l hl
    · exact List.mem_singleton.mp hl ▸ hline

theorem Reads.selection {line : List UINT1} (h : Reads s) (hline : IsSelection line) :
    Reads ⟨s.selections ++ [⟨line, s.comm_list, []⟩], []⟩ where
  printable := by
    intro sec hsec
    obtain hsec | hsec := List.mem_append.mp hsec
    · exact h.printable sec hsec
    · rw [List.mem_singleton.mp hsec]
      exact ⟨hline, h.comments, List.forall_mem_nil _⟩
  own := by
    rw [fresh, List.map_append, ← fresh, h.own]
    rfl
  comments := List.forall_mem_nil _

theorem Reads.item {selections : ini_file_t} {name value : List UINT1} (h : Reads s) (hentry : IsEntry name value)
    (hadd : addItem s.selections (strdupItem name value s.comm_list) = some selections) :
    Reads ⟨selections, []⟩ := by
  obtain hnil | ⟨front, sec, hsplit⟩ := s.selections.eq_nil_or_concat
  · rw [hnil] at hadd
    cases hadd
  · rw [List.concat_eq_append] at hsplit
    rw [hsplit, addItem_concat] at hadd
    obtain rfl := Option.some.inj hadd
    have hprintable := h.printable
    have hown := h.own
    rw [hsplit] at hprintable hown
    rw [fresh, List.map_append] at hown
    obtain ⟨hfront, hlast⟩ := List.append_inj hown (by simp)
    have hsec := hprintable sec (List.mem_append_right _ (List.mem_singleton_self sec))
    refine ⟨?_, ?_, List.forall_mem_nil _⟩
    · intro sec' hsec'
      obtain hsec' | hsec' := List.mem_append.mp hsec'
      · exact hprintable sec' (List.mem_append_left _ hsec')
      · rw [List.mem_singleton.mp hsec']
        refine ⟨hsec.selection, hsec.comments, ?_⟩
        intro item hitem
        obtain hitem | hitem := List.mem_append.mp hitem
        · exact hsec.items item hitem
        · rw [List.mem_singleton.mp hitem]
          exact ⟨hentry, h.comments⟩
    · have hitems : sec.ini_items.map freshItem = sec.ini_items := by
        simpa [freshSelection] using congrArg (·.ini_items) (List.singleton_inj.mp hlast)
      rw [fresh, List.map_append, hfront]
      simp [freshSelection, hitems, freshItem, strdupItem]

/-- The part before the first `=` behind the first byte, and the part after it. -/
theorem isEntry_cut {c : UINT1} {rest : List UINT1} (hclean : Clean (c :: rest)) (hnumber : c ≠ NUMBER_SIGN)
    (hsemicolon : c ≠ SEMICOLON) (hbracket : c ≠ LEFT_BRACKET) (hmem : EQUALS_SIGN ∈ rest) :
    IsEntry (c :: rest.takeWhile (· ≠ EQUALS_SIGN)) ((rest.dropWhile (· ≠ EQUALS_SIGN)).drop 1) := by
  obtain ⟨pre, post, rfl, hpre⟩ := List.eq_append_cons_of_mem hmem
  have hsplit := takeWhile_of_notMem pre post hpre
  rw [hsplit.1, hsplit.2]
  exact ⟨hclean, c, pre, rfl, hnumber, hsemicolon, hbracket, hpre⟩

theorem Reads.readLine (h : Reads s) (hlen : buf.length ≤ LINE_ROOM) (ht : readLine s buf = some t) : Reads t := by
  have hclean := clean_cutLine hlen
  unfold Ini.readLine at ht
  split at ht
  · exact Option.some.inj ht ▸ h
  · rename_i c rest hcut
    rw [hcut] at hclean
    split_ifs at ht with hcomment hbracket hmem
    · exact Option.some.inj ht ▸ h.comment ⟨hclean, c, rest, rfl, hcomment⟩
    · exact Option.some.inj ht ▸ h.selection ⟨hclean, rest, by rw [hbracket]⟩
    · obtain ⟨selections, hadd, rfl⟩ := Option.map_eq_some_iff.mp ht
      obtain ⟨hnumber, hsemicolon⟩ := not_or.mp hcomment
      exact h.item (isEntry_cut hclean hnumber hsemicolon hbracket hmem) hadd

theorem Reads.readLines {bufs : List (List UINT1)} (h : Reads s) (hlen : ∀ buf ∈ bufs, buf.length ≤ LINE_ROOM)
    (ht : readLines s bufs = some t) : Reads t := by
  induction bufs generalizing s with
  | nil => exact Option.some.inj ht ▸ h
  | cons buf bufs ih =>
    obtain ⟨hbuf, hbufs⟩ := List.forall_mem_cons.mp hlen
    rw [readLines_cons] at ht
    obtain ⟨u, hu, ht⟩ := Option.bind_eq_some_iff.mp ht
    exact ih (h.readLine hbuf hu) hbufs ht

theorem read_printable {content : List UINT1} (h : read_ini content = some doc) :
    (∀ sec ∈ doc, Printable sec) ∧ fresh doc = doc := by
  obtain ⟨s, hs, rfl⟩ := Option.map_eq_some_iff.mp h
  have hreads := reads_nil.readLines (length_chunks (by decide) rfl) hs
  exact ⟨hreads.printable, hreads.own⟩

/-- Whatever file is read, the document is saved without an overrun, and reading the saved file gives it back: lines
that are cut, split or left out when a file is read for the first time are not changed again. -/
theorem save_read (content : List UINT1) (h : read_ini content = some doc) : save_ini doc = some doc := by
  obtain ⟨hprintable, hown⟩ := read_printable h
  rw [save_printable hprintable, hown]

/-- The bytes of `#c`, `[a]` and `k=vv`, each with a newline. -/
def smallFile : List UINT1 := [35, 99, 10, 91, 97, 93, 10, 107, 61, 118, 118, 10]

theorem smallFile_saved : ∃ doc ∈ read_ini smallFile, save_ini doc = some doc := by
  have hread : (read_ini smallFile).isSome := by decide +kernel
  obtain ⟨doc, hdoc⟩ := Option.isSome_iff_exists.mp hread
  exact ⟨doc, hdoc, save_read smallFile hdoc⟩

end

end Ini

end DCFabric
