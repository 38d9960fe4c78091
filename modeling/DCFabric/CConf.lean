import DCFabric.BncTypes
import DCFabric.LoopRuns
import DCFabric.TlvRecords

namespace DCFabric

open LoopRuns TlvStreams

namespace CConf

def HORIZONTAL_TAB : UINT1 := 0x09
def NEWLINE : UINT1 := 0x0a
def CARRIAGE_RETURN : UINT1 := 0x0d
def SPACE : UINT1 := 0x20
def NUMBER_SIGN : UINT1 := 0x23
def EQUALS_SIGN : UINT1 := 0x3d
def LEFT_BRACKET : UINT1 := 0x5b
def RIGHT_BRACKET : UINT1 := 0x5d

end CConf

structure CConfigItem where
  key : List UINT1
  val : List UINT1
  comment : List (List UINT1)
deriving DecidableEq

def CConfigItem.clear : CConfigItem := ⟨[], [], []⟩

structure CConfigBlock where
  block : List UINT1
  items : List CConfigItem
deriving DecidableEq

def CConfigBlock.clear : CConfigBlock := ⟨[], []⟩

/-- An open file: the bytes that are not read yet, and the two bits of its state. -/
structure ifstream where
  rest : List UINT1
  eof : Bool
  fail : Bool
deriving DecidableEq

/-- What `getline` puts into a buffer of `n` bytes, without the NUL behind it. -/
def ifstream.getline (file : ifstream) (n : ℕ) : List UINT1 × ifstream :=
  if file.eof || file.fail then ([], { file with fail := true })
  else
    let line := (file.rest.takeWhile (· ≠ CConf.NEWLINE)).take (n - 1)
    match file.rest.drop line.length with
    | [] => (line, ⟨[], true, line = []⟩)
    | c :: rest => if c = CConf.NEWLINE then (line, ⟨rest, false, false⟩) else (line, ⟨c :: rest, false, true⟩)

namespace CConf

/-- The local variables of `loadConf`, with the blocks that it has put into `m_blocks`. -/
structure Loading where
  m_blocks : List CConfigBlock
  block : CConfigBlock
  item : CConfigItem
deriving DecidableEq

def Loading.start : Loading := ⟨[], .clear, .clear⟩

def skipLeadingBlanks (buf : List UINT1) : List UINT1 := buf.dropWhile fun c => c = SPACE || c = HORIZONTAL_TAB

/-- The `switch` over the first byte of a line. -/
def readLine (s : Loading) (buf : List UINT1) : Loading :=
  let line := cstring (skipLeadingBlanks buf)
  match line with
  | [] => s
  | c :: name =>
    if c = CARRIAGE_RETURN ∨ c = NEWLINE then s
    else if c = LEFT_BRACKET then
      { m_blocks := if s.block.block = [] then s.m_blocks else s.m_blocks ++ [s.block]
        block := ⟨name.takeWhile (· ≠ RIGHT_BRACKET), []⟩
        item := .clear }
    else if c = NUMBER_SIGN then { s with item := { s.item with comment := s.item.comment ++ [line] } }
    else
      let item :=
        if EQUALS_SIGN ∈ line then
          { s.item with
            key := line.takeWhile (· ≠ EQUALS_SIGN)
            val := (line.dropWhile (· ≠ EQUALS_SIGN)).drop 1 }
        else { s.item with key := line }
      { s with block := { s.block with items := s.block.items ++ [item] }, item := .clear }

/-- The loop of `loadConf`, and the `push_back` after it. -/
def loadPass : ifstream × Loading → Pass (ifstream × Loading) Unit (List CConfigBlock) := fun (file, s) =>
  if file.eof then .leave (s.m_blocks ++ [s.block])
  else
    let (buf, file) := file.getline 256
    .next () (file, readLine s buf)

/-- `loadConf` comes to its end with these blocks on a file with this content. -/
def Loads (content : List UINT1) (m_blocks : List CConfigBlock) : Prop :=
  ∃ es, Ends loadPass (⟨content, false, false⟩, .start) es m_blocks

def getConfig (m_blocks : List CConfigBlock) (block key : List UINT1) : Option (List UINT1) :=
  ((m_blocks.filter (·.block = cstring block)).flatMap (·.items)).find? (·.key = cstring key) |>.map (·.val)

def setConfig (m_blocks : List CConfigBlock) (block key val : List UINT1) : List CConfigBlock :=
  m_blocks.map fun blck =>
    if blck.block = cstring block then
      { blck with items := blck.items.map fun item =>
          if item.key = cstring key then { item with val := cstring val } else item }
    else blck

/-- The lines that `saveConf` writes. -/
def savedItem (item : CConfigItem) : List (List UINT1) :=
  item.comment.map cstring ++ [cstring item.key ++ EQUALS_SIGN :: cstring item.val]

def savedBlock (block : CConfigBlock) : List (List UINT1) :=
  (LEFT_BRACKET :: cstring block.block ++ [RIGHT_BRACKET]) :: block.items.flatMap savedItem ++ [[]]

def savedLines (m_blocks : List CConfigBlock) : List (List UINT1) := m_blocks.flatMap savedBlock

def saveConf (m_blocks : List CConfigBlock) : List UINT1 := (savedLines m_blocks).flatMap (· ++ [NEWLINE])

section

variable {line : List UINT1} {lines : List (List UINT1)} {n : ℕ}

theorem newline_notMem_getline (file : ifstream) (n : ℕ) : NEWLINE ∉ (file.getline n).1 := by
  unfold ifstream.getline
  split_ifs
  · exact List.not_mem_nil
  · have hline : NEWLINE ∉ (file.rest.takeWhile (· ≠ NEWLINE)).take (n - 1) := by
      intro hmem
      simpa using List.mem_takeWhile_imp (List.mem_of_mem_take hmem)
    dsimp only
    split
    · exact hline
    · split_ifs
      · exact hline
      · exact hline

/-- A line that fits is read without its newline. -/
theorem getline_line (rest : List UINT1) (hline : NEWLINE ∉ line) (hn : line.length < n) :
    (⟨line ++ NEWLINE :: rest, false, false⟩ : ifstream).getline n = (line, ⟨rest, false, false⟩) := by
  have htake : (line ++ NEWLINE :: rest).takeWhile (· ≠ NEWLINE) = line := by
    rw [List.takeWhile_append_of_pos, List.takeWhile_cons_of_neg (by simp), List.append_nil]
    intro c hc
    simpa using ne_of_mem_of_not_mem hc hline
  simp only [ifstream.getline, htake, List.take_of_length_le (show line.length ≤ n - 1 by omega), Bool.or_self,
    Bool.false_eq_true, if_false, List.drop_left, if_true]

theorem loads_lines (hlines : ∀ line ∈ lines, NEWLINE ∉ line ∧ line.length < 256) (s : Loading) :
    ∃ es, Ends loadPass (⟨lines.flatMap (· ++ [NEWLINE]), false, false⟩, s) es
      ((lines.foldl readLine s).m_blocks ++ [(lines.foldl readLine s).block]) := by
  induction lines generalizing s with
  | nil => exact ⟨[()], .next rfl (.leave rfl)⟩
  | cons line lines ih =>
    obtain ⟨⟨hline, hlen⟩, hlines⟩ := List.forall_mem_cons.mp hlines
    obtain ⟨es, hends⟩ := ih hlines (readLine s line)
    refine ⟨() :: es, .next ?_ hends⟩
    have hget := getline_line (lines.flatMap (· ++ [NEWLINE])) hline hlen
    simp only [loadPass, List.flatMap_cons, List.append_assoc, List.singleton_append, hget, Bool.false_eq_true, if_false]

end

end CConf

/-- What `saveConf` writes of an item is read as it was. -/
structure CConfigItem.Printable (item : CConfigItem) : Prop where
  key : ∀ c ∈ item.key, c ≠ 0 ∧ c ≠ CConf.NEWLINE ∧ c ≠ CConf.EQUALS_SIGN
  first : ∀ c ∈ item.key.head?, c ∉ [CConf.SPACE, CConf.HORIZONTAL_TAB, CConf.CARRIAGE_RETURN, CConf.LEFT_BRACKET,
    CConf.NUMBER_SIGN]
  val : ∀ c ∈ item.val, c ≠ 0 ∧ c ≠ CConf.NEWLINE
  comment : ∀ line ∈ item.comment, line.head? = some CConf.NUMBER_SIGN ∧ ∀ c ∈ line, c ≠ 0 ∧ c ≠ CConf.NEWLINE

structure CConfigBlock.Printable (block : CConfigBlock) : Prop where
  name : ∀ c ∈ block.block, c ≠ 0 ∧ c ≠ CConf.NEWLINE ∧ c ≠ CConf.RIGHT_BRACKET
  items : ∀ item ∈ block.items, item.Printable

namespace CConf

/-- Only the last block may be without a name. -/
def Printable (m_blocks : List CConfigBlock) : Prop :=
  ∃ front last, m_blocks = front ++ [last] ∧ (∀ block ∈ front, block.Printable ∧ block.block ≠ []) ∧ last.Printable

structure Loading.Inv (s : Loading) : Prop where
  m_blocks : ∀ block ∈ s.m_blocks, block.Printable ∧ block.block ≠ []
  block : s.block.Printable
  key : s.item.key = []
  val : s.item.val = []
  comment : ∀ line ∈ s.item.comment, line.head? = some NUMBER_SIGN ∧ ∀ c ∈ line, c ≠ 0 ∧ c ≠ NEWLINE

theorem start_inv : Loading.start.Inv :=
  ⟨List.forall_mem_nil _, ⟨List.forall_mem_nil _, List.forall_mem_nil _⟩, rfl, rfl, List.forall_mem_nil _⟩

theorem mem_line {buf : List UINT1} (hbuf : NEWLINE ∉ buf) {c : UINT1} (hc : c ∈ cstring (skipLeadingBlanks buf)) :
    c ≠ 0 ∧ c ≠ NEWLINE := by
  constructor
  · simpa using List.mem_takeWhile_imp hc
  · have hmem : c ∈ buf := (List.dropWhile_sublist _).mem ((List.takeWhile_sublist _).mem hc)
    exact ne_of_mem_of_not_mem hmem hbuf

theorem line_not_blank {buf : List UINT1} {c : UINT1} {name : List UINT1}
    (hline : cstring (skipLeadingBlanks buf) = c :: name) : c ≠ SPACE ∧ c ≠ HORIZONTAL_TAB := by
  have hhead := List.head?_dropWhile_not (fun c => decide (c = SPACE) || decide (c = HORIZONTAL_TAB)) buf
  cases hskip : skipLeadingBlanks buf with
  | nil => simp [hskip, cstring] at hline
  | cons d rest =>
    rw [hskip, cstring, List.takeWhile_cons] at hline
    split_ifs at hline
    obtain ⟨rfl, -⟩ := List.cons.inj hline
    rw [show buf.dropWhile _ = d :: rest from hskip] at hhead
    simpa using hhead

theorem Loading.Inv.push {s : Loading} (h : s.Inv) {item : CConfigItem} (hitem : item.Printable) :
    Inv { s with block := { s.block with items := s.block.items ++ [item] }, item := .clear } where
  m_blocks := h.m_blocks
  block := by
    refine ⟨h.block.name, fun i hi => ?_⟩
    rcases List.mem_append.mp hi with hi | hi
    · exact h.block.items i hi
    · rw [List.mem_singleton.mp hi]
      exact hitem
  key := rfl
  val := rfl
  comment := List.forall_mem_nil _

theorem Loading.Inv.readLine {s : Loading} (h : s.Inv) {buf : List UINT1} (hbuf : NEWLINE ∉ buf) :
    (readLine s buf).Inv := by
  have hmem : ∀ c ∈ cstring (skipLeadingBlanks buf), c ≠ 0 ∧ c ≠ NEWLINE := fun c => mem_line hbuf
  have hblank : ∀ c name, cstring (skipLeadingBlanks buf) = c :: name → c ≠ SPACE ∧ c ≠ HORIZONTAL_TAB :=
    fun c name => line_not_blank
  unfold CConf.readLine
  dsimp only
  generalize cstring (skipLeadingBlanks buf) = line at hmem hblank
  cases line with
  | nil => exact h
  | cons c name =>
    obtain ⟨hspace, htab⟩ := hblank c name rfl
    dsimp only
    by_cases hend : c = CARRIAGE_RETURN ∨ c = NEWLINE
    · rw [if_pos hend]
      exact h
    rw [if_neg hend]
    by_cases hbracket : c = LEFT_BRACKET
    · rw [if_pos hbracket]
      refine ⟨?_, ⟨?_, List.forall_mem_nil _⟩, rfl, rfl, List.forall_mem_nil _⟩
      · dsimp only
        split_ifs with hname
        · exact h.m_blocks
        · intro block hblock
          rcases List.mem_append.mp hblock with hblock | hblock
          · exact h.m_blocks block hblock
          · rw [List.mem_singleton.mp hblock]
            exact ⟨h.block, hname⟩
      · intro d hd
        obtain ⟨hnul, hnewline⟩ := hmem d (List.mem_cons_of_mem c ((List.takeWhile_sublist _).mem hd))
        exact ⟨hnul, hnewline, by simpa using List.mem_takeWhile_imp hd⟩
    rw [if_neg hbracket]
    by_cases hcomment : c = NUMBER_SIGN
    · rw [if_pos hcomment]
      refine ⟨h.m_blocks, h.block, h.key, h.val, fun line hline => ?_⟩
      rcases List.mem_append.mp hline with hline | hline
      · exact h.comment line hline
      · rw [List.mem_singleton.mp hline]
        exact ⟨congrArg some hcomment, hmem⟩
    rw [if_neg hcomment]
    apply h.push
    have hfirst : c ∉ [SPACE, HORIZONTAL_TAB, CARRIAGE_RETURN, LEFT_BRACKET, NUMBER_SIGN] := by
      simp only [List.mem_cons, List.not_mem_nil, or_false, not_or]
      exact ⟨hspace, htab, fun hcr => hend (.inl hcr), hbracket, hcomment⟩
    by_cases hequals : EQUALS_SIGN ∈ c :: name
    · rw [if_pos hequals]
      refine ⟨?_, ?_, ?_, h.comment⟩
      · intro d hd
        obtain ⟨hnul, hnewline⟩ := hmem d ((List.takeWhile_sublist _).mem hd)
        exact ⟨hnul, hnewline, by simpa using List.mem_takeWhile_imp hd⟩
      · intro d hd
        dsimp only at hd
        rw [List.takeWhile_cons] at hd
        split_ifs at hd
        · obtain rfl := Option.some.inj hd
          exact hfirst
        · cases hd
      · intro d hd
        exact hmem d ((List.dropWhile_sublist _).mem (List.mem_of_mem_drop hd))
    · rw [if_neg hequals]
      refine ⟨?_, ?_, ?_, h.comment⟩
      · intro d hd
        obtain ⟨hnul, hnewline⟩ := hmem d hd
        exact ⟨hnul, hnewline, ne_of_mem_of_not_mem hd hequals⟩
      · intro d hd
        obtain rfl := Option.some.inj hd
        exact hfirst
      · dsimp only
        rw [h.val]
        exact List.forall_mem_nil _

theorem Loads.printable {content : List UINT1} {m_blocks : List CConfigBlock} (h : Loads content m_blocks) :
    Printable m_blocks := by
  obtain ⟨es, hends⟩ := h
  refine hends.result (I := fun p => p.2.Inv) ?_ ?_ start_inv
  · rintro ⟨file, s⟩ e t hs hpass
    simp only [loadPass] at hpass
    split_ifs at hpass
    cases hpass
    exact hs.readLine (newline_notMem_getline file 256)
  · rintro ⟨file, s⟩ r hs hpass
    simp only [loadPass] at hpass
    split_ifs at hpass
    cases hpass
    exact ⟨s.m_blocks, s.block, rfl, hs.m_blocks, hs.block⟩

section

variable {m_blocks : List CConfigBlock} {item : CConfigItem} {block : CConfigBlock}

theorem cstring_eq {l : List UINT1} (h : ∀ c ∈ l, c ≠ 0) : cstring l = l := cstring_eq_self fun hmem => h 0 hmem rfl

theorem setConfig_printable (h : Printable m_blocks) (block key : List UINT1) {val : List UINT1}
    (hval : NEWLINE ∉ cstring val) : Printable (setConfig m_blocks block key val) := by
  have hitem : ∀ item : CConfigItem, item.Printable →
      (if item.key = cstring key then { item with val := cstring val } else item).Printable := by
    intro item hitem
    split_ifs
    · refine ⟨hitem.key, hitem.first, fun c hc => ⟨?_, ne_of_mem_of_not_mem hc hval⟩, hitem.comment⟩
      simpa using List.mem_takeWhile_imp hc
    · exact hitem
  have hset : ∀ blck : CConfigBlock, blck.Printable →
      (if blck.block = cstring block then
        { blck with items := blck.items.map fun item =>
            if item.key = cstring key then { item with val := cstring val } else item }
      else blck).Printable := by
    intro blck hblck
    split_ifs
    · refine ⟨hblck.name, fun i hi => ?_⟩
      obtain ⟨j, hj, rfl⟩ := List.mem_map.mp hi
      exact hitem j (hblck.items j hj)
    · exact hblck
  obtain ⟨front, last, rfl, hfront, hlast⟩ := h
  refine ⟨_, _, List.map_append, fun blck hblck => ?_, hset last hlast⟩
  obtain ⟨b, hb, rfl⟩ := List.mem_map.mp hblck
  obtain ⟨hp, hname⟩ := hfront b hb
  refine ⟨hset b hp, ?_⟩
  split_ifs
  · exact hname
  · exact hname

theorem clean_line {line : List UINT1} (hnul : ∀ c ∈ line, c ≠ 0)
    (hfirst : ∀ c ∈ line.head?, c ≠ SPACE ∧ c ≠ HORIZONTAL_TAB) : cstring (skipLeadingBlanks line) = line := by
  have hskip : skipLeadingBlanks line = line := by
    cases line with
    | nil => rfl
    | cons c name =>
      obtain ⟨hspace, htab⟩ := hfirst c rfl
      rw [skipLeadingBlanks, List.dropWhile_cons_of_neg (by simp [hspace, htab])]
  rw [hskip, cstring_eq hnul]

theorem takeWhile_of_notMem (l rest : List UINT1) {d : UINT1} (h : d ∉ l) :
    (l ++ d :: rest).takeWhile (· ≠ d) = l ∧ (l ++ d :: rest).dropWhile (· ≠ d) = d :: rest := by
  have hall : ∀ c ∈ l, decide (c ≠ d) = true := by
    intro c hc
    simpa using ne_of_mem_of_not_mem hc h
  rw [List.takeWhile_append_of_pos hall, List.dropWhile_append_of_pos hall,
    List.takeWhile_cons_of_neg (by simp), List.dropWhile_cons_of_neg (by simp), List.append_nil]
  exact ⟨rfl, rfl⟩

/-- The blocks that are complete when another one begins. -/
def Loading.complete (s : Loading) : List CConfigBlock :=
  if s.block.block = [] then s.m_blocks else s.m_blocks ++ [s.block]

theorem readLine_block (s : Loading) (h : block.Printable) :
    readLine s (LEFT_BRACKET :: block.block ++ [RIGHT_BRACKET]) = ⟨s.complete, ⟨block.block, []⟩, .clear⟩ := by
  have hclean : cstring (skipLeadingBlanks (LEFT_BRACKET :: block.block ++ [RIGHT_BRACKET])) =
      LEFT_BRACKET :: (block.block ++ [RIGHT_BRACKET]) := by
    apply clean_line
    · intro c hc
      rcases List.mem_cons.mp hc with rfl | hc
      · decide
      · rcases List.mem_append.mp hc with hc | hc
        · exact (h.name c hc).1
        · rw [List.mem_singleton.mp hc]
          decide
    · intro c hc
      obtain rfl := Option.some.inj hc
      decide
  have hname : (block.block ++ [RIGHT_BRACKET]).takeWhile (· ≠ RIGHT_BRACKET) = block.block :=
    (takeWhile_of_notMem _ [] fun hmem => (h.name _ hmem).2.2 rfl).1
  unfold readLine
  rw [hclean]
  dsimp only
  rw [if_neg (by decide), if_pos rfl, hname]
  rfl

theorem readLine_comment (s : Loading) {line : List UINT1} (hfirst : line.head? = some NUMBER_SIGN)
    (hline : ∀ c ∈ line, c ≠ 0 ∧ c ≠ NEWLINE) :
    readLine s line = { s with item := { s.item with comment := s.item.comment ++ [line] } } := by
  have hclean : cstring (skipLeadingBlanks line) = line := by
    apply clean_line fun c hc => (hline c hc).1
    intro c hc
    rw [hfirst] at hc
    obtain rfl := Option.some.inj hc
    decide
  unfold readLine
  rw [hclean]
  cases line with
  | nil => cases hfirst
  | cons c rest =>
    obtain rfl := Option.some.inj hfirst
    dsimp only
    rw [if_neg (by decide), if_neg (by decide), if_pos rfl]

theorem readLine_item (s : Loading) (h : item.Printable) :
    readLine { s with item := ⟨[], [], item.comment⟩ } (item.key ++ EQUALS_SIGN :: item.val) =
      { s with block := { s.block with items := s.block.items ++ [item] }, item := .clear } := by
  have hfirst : ∀ c ∈ (item.key ++ EQUALS_SIGN :: item.val).head?,
      c ∉ [SPACE, HORIZONTAL_TAB, CARRIAGE_RETURN, LEFT_BRACKET, NUMBER_SIGN] ∧ c ≠ NEWLINE := by
    intro c hc
    cases hkey : item.key with
    | nil =>
      rw [hkey] at hc
      obtain rfl := Option.some.inj hc
      decide
    | cons d rest =>
      rw [hkey] at hc
      obtain rfl := Option.some.inj hc
      exact ⟨h.first d (by simp [hkey]), (h.key d (by simp [hkey])).2.1⟩
  have hclean : cstring (skipLeadingBlanks (item.key ++ EQUALS_SIGN :: item.val)) =
      item.key ++ EQUALS_SIGN :: item.val := by
    apply clean_line
    · intro c hc
      rcases List.mem_append.mp hc with hc | hc
      · exact (h.key c hc).1
      · rcases List.mem_cons.mp hc with rfl | hc
        · decide
        · exact (h.val c hc).1
    · intro c hc
      have hne := (hfirst c hc).1
      simp only [List.mem_cons, not_or] at hne
      exact ⟨hne.1, hne.2.1⟩
  obtain ⟨htake, hdrop⟩ := takeWhile_of_notMem item.key item.val
    fun hmem => (h.key EQUALS_SIGN hmem).2.2 rfl
  have hequals : EQUALS_SIGN ∈ item.key ++ EQUALS_SIGN :: item.val := by simp
  unfold readLine
  rw [hclean]
  generalize item.key ++ EQUALS_SIGN :: item.val = line at hfirst htake hdrop hequals
  cases line with
  | nil => cases hequals
  | cons c name =>
    obtain ⟨hne, hnewline⟩ := hfirst c rfl
    simp only [List.mem_cons, List.not_mem_nil, or_false, not_or] at hne
    obtain ⟨-, -, hcr, hbracket, hsharp⟩ := hne
    dsimp only
    rw [if_neg (by simp [hcr, hnewline]), if_neg hbracket, if_neg hsharp, if_pos hequals, htake, hdrop]
    rfl

theorem foldl_comments (s : Loading) {comments : List (List UINT1)}
    (h : ∀ line ∈ comments, line.head? = some NUMBER_SIGN ∧ ∀ c ∈ line, c ≠ 0 ∧ c ≠ NEWLINE) :
    comments.foldl readLine s = { s with item := { s.item with comment := s.item.comment ++ comments } } := by
  induction comments generalizing s with
  | nil => simp
  | cons line comments ih =>
    obtain ⟨⟨hfirst, hline⟩, hcomments⟩ := List.forall_mem_cons.mp h
    rw [List.foldl_cons, readLine_comment s hfirst hline, ih _ hcomments]
    simp

theorem foldl_savedItem (s : Loading) (h : item.Printable) :
    (savedItem item).foldl readLine { s with item := .clear } =
      { s with block := { s.block with items := s.block.items ++ [item] }, item := .clear } := by
  have hcomment : item.comment.map cstring = item.comment :=
    (List.map_congr_left fun line hline => cstring_eq fun c hc => ((h.comment line hline).2 c hc).1).trans
      (List.map_id _)
  rw [savedItem, hcomment, cstring_eq fun c hc => (h.key c hc).1, cstring_eq fun c hc => (h.val c hc).1,
    List.foldl_append, foldl_comments _ h.comment]
  exact readLine_item s h

theorem foldl_savedItems (s : Loading) {items : List CConfigItem} (h : ∀ item ∈ items, item.Printable) :
    (items.flatMap savedItem).foldl readLine { s with item := .clear } =
      { s with block := { s.block with items := s.block.items ++ items }, item := .clear } := by
  induction items generalizing s with
  | nil => simp
  | cons item items ih =>
    obtain ⟨hitem, hitems⟩ := List.forall_mem_cons.mp h
    rw [List.flatMap_cons, List.foldl_append, foldl_savedItem s hitem]
    have hrest := ih { s with block := { s.block with items := s.block.items ++ [item] } } hitems
    simpa using hrest

theorem foldl_savedBlock (s : Loading) (h : block.Printable) :
    (savedBlock block).foldl readLine s = ⟨s.complete, block, .clear⟩ := by
  rw [savedBlock, cstring_eq fun c hc => (h.name c hc).1, List.foldl_append]
  change readLine ((block.items.flatMap savedItem).foldl readLine (readLine s _)) [] = _
  have hitems := foldl_savedItems ⟨s.complete, ⟨block.block, []⟩, .clear⟩ h.items
  rw [readLine_block s h, hitems]
  rfl

/-- By induction on the blocks but the last: each of them is complete when the next one begins. -/
theorem foldl_savedLines {front : List CConfigBlock} {last : CConfigBlock}
    (hfront : ∀ block ∈ front, block.Printable ∧ block.block ≠ []) (hlast : last.Printable) :
    (savedLines (front ++ [last])).foldl readLine .start = ⟨front, last, .clear⟩ := by
  induction front using List.reverseRecOn generalizing last with
  | nil =>
    rw [List.nil_append, savedLines, List.flatMap_singleton, foldl_savedBlock _ hlast]
    rfl
  | append_singleton front block ih =>
    obtain ⟨hblock, hname⟩ := hfront block (by simp)
    have hprev := ih (fun b hb => hfront b (by simp [hb])) hblock
    rw [savedLines, List.flatMap_append, List.flatMap_singleton, List.foldl_append]
    rw [savedLines] at hprev
    rw [hprev, foldl_savedBlock _ hlast, Loading.complete, if_neg hname]

theorem newline_notMem_savedItem (h : item.Printable) : ∀ line ∈ savedItem item, NEWLINE ∉ line := by
  intro line hline hmem
  rcases List.mem_append.mp hline with hline | hline
  · obtain ⟨text, htext, rfl⟩ := List.mem_map.mp hline
    exact ((h.comment text htext).2 NEWLINE ((List.takeWhile_sublist _).mem hmem)).2 rfl
  · rw [List.mem_singleton.mp hline] at hmem
    rcases List.mem_append.mp hmem with hmem | hmem
    · exact (h.key NEWLINE ((List.takeWhile_sublist _).mem hmem)).2.1 rfl
    · rcases List.mem_cons.mp hmem with heq | hmem
      · exact absurd heq (by decide)
      · exact (h.val NEWLINE ((List.takeWhile_sublist _).mem hmem)).2 rfl

theorem newline_notMem_savedBlock (h : block.Printable) : ∀ line ∈ savedBlock block, NEWLINE ∉ line := by
  intro line hline
  rcases List.mem_append.mp hline with hline | hline
  · rcases List.mem_cons.mp hline with rfl | hline
    · intro hmem
      rcases List.mem_append.mp hmem with hmem | hmem
      · rcases List.mem_cons.mp hmem with heq | hmem
        · exact absurd heq (by decide)
        · exact (h.name NEWLINE ((List.takeWhile_sublist _).mem hmem)).2.1 rfl
      · exact absurd (List.mem_singleton.mp hmem) (by decide)
    · obtain ⟨item, hitem, hline⟩ := List.mem_flatMap.mp hline
      exact newline_notMem_savedItem (h.items item hitem) line hline
  · rw [List.mem_singleton.mp hline]
    exact List.not_mem_nil

/-- What is saved of blocks that can be printed is loaded as it was. -/
theorem Printable.loads (h : Printable m_blocks) (hlen : ∀ line ∈ savedLines m_blocks, line.length < 256) :
    Loads (saveConf m_blocks) m_blocks := by
  obtain ⟨front, last, rfl, hfront, hlast⟩ := h
  have hlines : ∀ line ∈ savedLines (front ++ [last]), NEWLINE ∉ line ∧ line.length < 256 := by
    intro line hline
    refine ⟨?_, hlen line hline⟩
    obtain ⟨block, hblock, hline⟩ := List.mem_flatMap.mp hline
    rcases List.mem_append.mp hblock with hblock | hblock
    · exact newline_notMem_savedBlock (hfront block hblock).1 line hline
    · exact newline_notMem_savedBlock (List.mem_singleton.mp hblock ▸ hlast) line hline
  obtain ⟨es, hends⟩ := loads_lines hlines .start
  rw [foldl_savedLines hfront hlast] at hends
  exact ⟨es, hends⟩

theorem foldl_setConfig_printable {calls : List (List UINT1 × List UINT1 × List UINT1)} (h : Printable m_blocks)
    (hcalls : ∀ call ∈ calls, NEWLINE ∉ cstring call.2.2) :
    Printable (calls.foldl (fun m_blocks call => setConfig m_blocks call.1 call.2.1 call.2.2) m_blocks) := by
  induction calls generalizing m_blocks with
  | nil => exact h
  | cons call calls ih =>
    obtain ⟨hcall, hcalls⟩ := List.forall_mem_cons.mp hcalls
    exact ih (setConfig_printable h call.1 call.2.1 hcall) hcalls

end

theorem loads_unique {content : List UINT1} {m_blocks m_blocks' : List CConfigBlock} (h : Loads content m_blocks)
    (h' : Loads content m_blocks') : m_blocks = m_blocks' := by
  obtain ⟨es, hends⟩ := h
  obtain ⟨es', hends'⟩ := h'
  exact (hends.unique hends').2

def entries (m_blocks : List CConfigBlock) : List (List UINT1 × List (List UINT1 × List UINT1)) :=
  m_blocks.map fun b => (b.block, b.items.map fun i => (i.key, i.val))

/-- The file with this content is loaded as the blocks that were saved. -/
structure Restored (content : List UINT1) (saved loaded : List CConfigBlock) : Prop where
  loads : Loads content loaded
  only : ∀ loaded', Loads content loaded' → loaded' = loaded
  entries : entries loaded = entries saved
  answers : ∀ block key, getConfig loaded block key = getConfig saved block key

theorem saveConf_restored (content : List UINT1) (m_blocks : List CConfigBlock) (hloads : Loads content m_blocks)
    (calls : List (List UINT1 × List UINT1 × List UINT1)) (hcalls : ∀ call ∈ calls, NEWLINE ∉ cstring call.2.2)
    (saved : List CConfigBlock)
    (hsaved : calls.foldl (fun m_blocks call => setConfig m_blocks call.1 call.2.1 call.2.2) m_blocks = saved)
    (hlen : ∀ line ∈ savedLines saved, line.length ≤ 254) :
    ∃ loaded, Restored (saveConf saved) saved loaded := by
  subst hsaved
  have hprintable := foldl_setConfig_printable hloads.printable hcalls
  have hloads' := hprintable.loads fun line hline => Nat.lt_of_le_of_lt (hlen line hline) (by decide)
  exact ⟨_, hloads', fun _ h => loads_unique h hloads', rfl, fun _ _ => rfl⟩

/-- ` [a]`, a comment and `k=v`, with the value set to `w`. -/
theorem oneItem_restored : ∃ loaded, Restored (saveConf [⟨[0x61], [⟨[0x6b], [0x77], [[0x23]]⟩]⟩])
    [⟨[0x61], [⟨[0x6b], [0x77], [[0x23]]⟩]⟩] loaded :=
  saveConf_restored [0x20, 0x5b, 0x61, 0x5d, 0x0a, 0x23, 0x0a, 0x6b, 0x3d, 0x76]
    [⟨[0x61], [⟨[0x6b], [0x76], [[0x23]]⟩]⟩] ⟨[(), (), ()], .of_run (show run loadPass 4 _ = some _ by decide)⟩
    [([0x61], [0x6b], [0x77])] (by decide) _ rfl (by decide)

end CConf

end DCFabric
