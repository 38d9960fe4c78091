import DCFabric.IniFiles
import DCFabric.TransitionRuns

namespace DCFabric

open TransitionRuns CConf

namespace Ini

inductive Call where
  | set (selection item value : List UINT1)
  | remove (selection : List UINT1)
  | save

def step (doc : ini_file_t) : Call → Option ini_file_t
  | .set selection item value => (set_value doc selection item value).map (·.2)
  | .remove selection => some (remove_selection doc selection).2
  | .save => save_ini doc

/-- The texts that a file can hold. -/
def Call.Valid : Call → Prop
  | .set selection item value => IsSelection selection ∧ IsEntry item value
  | _ => True

/-- What the values of a document are to its users. -/
abbrev Store := List UINT1 → List UINT1 → Option (List UINT1)

def Store.apply (store : Store) : Call → Store
  | .set selection item value => Function.update store selection (Function.update (store selection) item (some value))
  | .remove selection => Function.update store selection fun _ => none
  | .save => store

variable {doc doc' : ini_file_t} {sec : ini_selection_t} {selection item value s i : List UINT1} {ret : ℕ}
  {items : List ini_item_t}

def valueOf (items : List ini_item_t) (item : List UINT1) : Option (List UINT1) :=
  (items.find? (·.name = item)).map (·.value)

theorem get_value_nil : get_value [] s i = none := rfl

theorem get_value_cons :
    get_value (sec :: doc) s i = if sec.selection = s then valueOf sec.ini_items i else get_value doc s i := by
  unfold get_value valueOf
  by_cases h : sec.selection = s <;> simp [h]

theorem valueOf_storeValue (h : (items.find? (·.name = item)).isSome) :
    valueOf (storeValue item value items) = Function.update (valueOf items) item (some value) := by
  funext i
  induction items with
  | nil => cases h
  | cons it items ih =>
    by_cases hname : it.name = item
    · by_cases hi : i = item
      · subst hi
        simp [storeValue, valueOf, hname]
      · have hne : ¬ it.name = i := fun heq => hi (heq.symm.trans hname)
        simp [storeValue, valueOf, hname, hi, Ne.symm hi]
    · have hrest : (items.find? (·.name = item)).isSome := by simpa [hname] using h
      have htail := ih hrest
      by_cases hi : i = item
      · subst hi
        simpa [storeValue, valueOf, hname] using htail
      · by_cases hit : it.name = i
        · simp [storeValue, valueOf, hi, hit]
        · simpa [storeValue, valueOf, hname, hi, hit] using htail

theorem valueOf_concat (h : items.find? (·.name = item) = none) (comments : List (List UINT1)) :
    valueOf (items ++ [strdupItem item value comments]) = Function.update (valueOf items) item (some value) := by
  funext i
  by_cases hi : i = item
  · subst hi
    simp [valueOf, List.find?_append, h, strdupItem]
  · simp [valueOf, List.find?_append, strdupItem, hi, Ne.symm hi]

theorem get_value_absent (h : ∀ sec ∈ doc, sec.selection ≠ s) : get_value doc s i = none := by
  induction doc with
  | nil => rfl
  | cons sec doc ih =>
    obtain ⟨hsec, hdoc⟩ := List.forall_mem_cons.mp h
    rw [get_value_cons, if_neg hsec, ih hdoc]

/-- The items after a value is set: the item that has it has the comments of the old one, if there is one. -/
def Sets (item value : List UINT1) (items items' : List ini_item_t) : Prop :=
  ∀ it ∈ items', it ∈ items ∨ it.name = item ∧ it.value = value ∧
    (it.comments = [] ∨ ∃ old ∈ items, it.comments = old.comments)

theorem sets_storeValue : Sets item value items (storeValue item value items) := by
  induction items with
  | nil => exact List.forall_mem_nil _
  | cons old items ih =>
    rw [storeValue]
    split_ifs with hname
    · intro it hit
      obtain rfl | hit := List.mem_cons.mp hit
      · exact .inr ⟨hname, rfl, .inr ⟨old, List.mem_cons_self, rfl⟩⟩
      · exact .inl (List.mem_cons_of_mem _ hit)
    · intro it hit
      obtain rfl | hit := List.mem_cons.mp hit
      · exact .inl List.mem_cons_self
      obtain hit | ⟨hn, hv, hnil | ⟨o, ho, hc⟩⟩ := ih it hit
      · exact .inl (List.mem_cons_of_mem _ hit)
      · exact .inr ⟨hn, hv, .inl hnil⟩
      · exact .inr ⟨hn, hv, .inr ⟨o, List.mem_cons_of_mem _ ho, hc⟩⟩

theorem sets_concat : Sets item value items (items ++ [strdupItem item value []]) := by
  intro it hit
  obtain hit | hit := List.mem_append.mp hit
  · exact .inl hit
  · rw [List.mem_singleton.mp hit]
    exact .inr ⟨rfl, rfl, .inl rfl⟩

/-- One turn of the loop. Behind a selection in which the item was found it goes no further. -/
theorem setLoop_cons {rest : ini_file_t} (h : setLoop selection item value (sec :: rest) = some (ret, doc')) :
    ∃ items rest', doc' = { sec with ini_items := items } :: rest' ∧
      (rest' = rest ∧ sec.selection = selection ∨ ∃ ret', setLoop selection item value rest = some (ret', rest')) ∧
      (sec.selection ≠ selection ∧ items = sec.ini_items ∨ sec.selection = selection ∧
        valueOf items = Function.update (valueOf sec.ini_items) item (some value) ∧
        Sets item value sec.ini_items items) := by
  rw [setLoop] at h
  split_ifs at h with hsec
  · split at h
    · rename_i it hfind
      split_ifs at h
      obtain ⟨-, rfl⟩ := Prod.mk.inj (Option.some.inj h)
      exact ⟨_, rest, rfl, .inl ⟨rfl, hsec⟩, .inr ⟨hsec, valueOf_storeValue (by simp [hfind]), sets_storeValue⟩⟩
    · rename_i hfind
      obtain ⟨⟨ret', rest'⟩, hrest, heq⟩ := Option.map_eq_some_iff.mp h
      obtain ⟨-, rfl⟩ := Prod.mk.inj heq
      exact ⟨_, rest', rfl, .inr ⟨ret', hrest⟩, .inr ⟨hsec, valueOf_concat hfind [], sets_concat⟩⟩
  · obtain ⟨⟨ret', rest'⟩, hrest, heq⟩ := Option.map_eq_some_iff.mp h
    obtain ⟨-, rfl⟩ := Prod.mk.inj heq
    exact ⟨_, rest', rfl, .inr ⟨ret', hrest⟩, .inl ⟨hsec, rfl⟩⟩

/-- The loop sets the value in the first selection of the name and no other value that is found. -/
theorem get_value_setLoop (h : setLoop selection item value doc = some (ret, doc')) :
    get_value doc' s i = if s = selection ∧ i = item ∧ ∃ sec ∈ doc, sec.selection = selection then some value
      else get_value doc s i := by
  induction doc generalizing doc' ret with
  | nil =>
    obtain ⟨-, rfl⟩ := Prod.mk.inj (Option.some.inj h)
    simp
  | cons sec rest ih =>
    obtain ⟨items, rest', rfl, hrest, hitems⟩ := setLoop_cons h
    have hother : s ≠ selection → get_value rest' s i = get_value rest s i := by
      intro hs
      obtain ⟨rfl, -⟩ | ⟨ret', hrest⟩ := hrest
      · rfl
      · simpa [hs] using ih hrest
    rw [get_value_cons, get_value_cons]
    obtain ⟨hne, rfl⟩ | ⟨heq, hvalue, -⟩ := hitems
    · obtain ⟨-, heq⟩ | ⟨ret', hrest⟩ := hrest
      · exact absurd heq hne
      · by_cases hs : sec.selection = s
        · have hsel : s ≠ selection := fun heq => hne (hs.trans heq)
          simp [hs, hsel]
        · simpa [hs, hne] using ih hrest
    · by_cases hs : s = selection
      · subst hs
        by_cases hi : i = item
        · simp [heq, hvalue, hi]
        · simp [heq, hvalue, hi]
      · have hsec : ¬ sec.selection = s := fun h => hs (h.symm.trans heq)
        simp [hs, hsec, hother hs]

theorem selections_setLoop (h : setLoop selection item value doc = some (ret, doc')) :
    doc'.map (·.selection) = doc.map (·.selection) := by
  induction doc generalizing doc' ret with
  | nil =>
    obtain ⟨-, rfl⟩ := Prod.mk.inj (Option.some.inj h)
    rfl
  | cons sec rest ih =>
    obtain ⟨items, rest', rfl, ⟨rfl, -⟩ | ⟨ret', hrest⟩, -⟩ := setLoop_cons h
    · rfl
    · rw [List.map_cons, List.map_cons, ih hrest]

theorem printable_setLoop (hentry : IsEntry item value) (hdoc : ∀ sec ∈ doc, Printable sec)
    (h : setLoop selection item value doc = some (ret, doc')) : ∀ sec ∈ doc', Printable sec := by
  induction doc generalizing doc' ret with
  | nil =>
    obtain ⟨-, rfl⟩ := Prod.mk.inj (Option.some.inj h)
    exact hdoc
  | cons sec rest ih =>
    obtain ⟨hsec, hprintable⟩ := List.forall_mem_cons.mp hdoc
    obtain ⟨items, rest', rfl, hrest, hitems⟩ := setLoop_cons h
    have hsets : Printable { sec with ini_items := items } := by
      refine ⟨hsec.selection, hsec.comments, ?_⟩
      obtain ⟨-, rfl⟩ | ⟨-, -, hset⟩ := hitems
      · exact hsec.items
      · intro it hit
        obtain hold | ⟨hn, hv, hnil | ⟨old, hold, hc⟩⟩ := hset it hit
        · exact hsec.items it hold
        · rw [hn, hv, hnil]
          exact ⟨hentry, List.forall_mem_nil _⟩
        · rw [hn, hv, hc]
          exact ⟨hentry, (hsec.items old hold).2⟩
    rw [List.forall_mem_cons]
    refine ⟨hsets, ?_⟩
    obtain ⟨rfl, -⟩ | ⟨ret', hrest⟩ := hrest
    · exact hprintable
    · exact ih hprintable hrest

theorem get_value_append_nil : get_value (doc ++ [⟨selection, [], []⟩]) s i = get_value doc s i := by
  induction doc with
  | nil =>
    rw [List.nil_append, get_value_cons]
    split_ifs <;> rfl
  | cons sec doc ih => rw [List.cons_append, get_value_cons, get_value_cons, ih]

theorem get_value_withSelection : get_value (withSelection doc selection) s i = get_value doc s i := by
  unfold withSelection
  split_ifs
  · rfl
  · exact get_value_append_nil

theorem mem_withSelection : ∃ sec ∈ withSelection doc selection, sec.selection = selection := by
  unfold withSelection
  split_ifs with h
  · simpa using h
  · exact ⟨_, List.mem_append_right _ (List.mem_singleton_self _), rfl⟩

theorem nodup_withSelection (h : (doc.map (·.selection)).Nodup) :
    ((withSelection doc selection).map (·.selection)).Nodup := by
  unfold withSelection
  split_ifs with hany
  · exact h
  · have hnot : selection ∉ doc.map (·.selection) := by simpa using hany
    rw [List.map_append]
    exact h.append (List.nodup_singleton _) (by simpa using hnot)

theorem printable_withSelection (hsel : IsSelection selection) (h : ∀ sec ∈ doc, Printable sec) :
    ∀ sec ∈ withSelection doc selection, Printable sec := by
  intro sec hsec
  unfold withSelection at hsec
  split_ifs at hsec
  · exact h sec hsec
  · obtain hsec | hsec := List.mem_append.mp hsec
    · exact h sec hsec
    · rw [List.mem_singleton.mp hsec]
      exact ⟨hsel, List.forall_mem_nil _, List.forall_mem_nil _⟩

theorem get_value_remove (h : (doc.map (·.selection)).Nodup) :
    get_value (remove_selection doc selection).2 s i = if s = selection then none else get_value doc s i := by
  unfold remove_selection
  induction doc with
  | nil => simp [get_value_nil]
  | cons sec doc ih =>
    obtain ⟨hnot, hnodup⟩ := List.nodup_cons.mp h
    by_cases hsec : sec.selection = selection
    · rw [List.eraseP_cons_of_pos (by simpa using hsec), get_value_cons]
      by_cases hs : s = selection
      · rw [if_pos hs]
        apply get_value_absent
        intro sec' hsec' heq
        exact hnot (List.mem_map.mpr ⟨sec', hsec', heq.trans (hs.trans hsec.symm)⟩)
      · have hne : ¬ sec.selection = s := fun heq => hs (heq.symm.trans hsec)
        rw [if_neg hs, if_neg hne]
    · rw [List.eraseP_cons_of_neg (by simpa using hsec), get_value_cons, get_value_cons, ih hnodup]
      by_cases hs : s = selection
      · have hne : ¬ sec.selection = s := fun heq => hsec (heq.trans hs)
        rw [if_neg hne, if_pos hs, if_pos hs]
      · rw [if_neg hs, if_neg hs]

theorem get_value_fresh : get_value (fresh doc) s i = get_value doc s i := by
  have hvalue (items : List ini_item_t) : valueOf (items.map freshItem) i = valueOf items i := by
    have hname : (fun it : ini_item_t => decide (it.name = i)) ∘ freshItem = fun it => decide (it.name = i) := rfl
    unfold valueOf
    rw [List.find?_map, hname, Option.map_map]
    rfl
  induction doc with
  | nil => rfl
  | cons sec doc ih =>
    rw [fresh, List.map_cons, ← fresh, get_value_cons, get_value_cons, ih]
    congr 1
    exact hvalue sec.ini_items

/-- What the calls keep: the document can be printed, and each of its selections is the one of its name. -/
structure Kept (doc : ini_file_t) : Prop where
  printable : ∀ sec ∈ doc, Printable sec
  nodup : (doc.map (·.selection)).Nodup

theorem kept_fresh (h : Kept doc) : Kept (fresh doc) where
  printable := by
    intro sec hsec
    obtain ⟨old, hold, rfl⟩ := List.mem_map.mp hsec
    obtain ⟨hsel, hcomments, hitems⟩ := h.printable old hold
    refine ⟨hsel, hcomments, ?_⟩
    intro item hitem
    obtain ⟨olditem, holditem, rfl⟩ := List.mem_map.mp hitem
    exact hitems olditem holditem
  nodup := by
    have hnames : (fresh doc).map (·.selection) = doc.map (·.selection) := List.map_map
    rw [hnames]
    exact h.nodup

theorem Kept.call {call : Call} (h : Kept doc) (hvalid : call.Valid) (hstep : step doc call = some doc') :
    Kept doc' ∧ get_value doc' = Store.apply (get_value doc) call := by
  cases call with
  | set selection item value =>
    obtain ⟨⟨ret, d⟩, hset, rfl⟩ := Option.map_eq_some_iff.mp hstep
    refine ⟨⟨?_, ?_⟩, ?_⟩
    · exact printable_setLoop hvalid.2 (printable_withSelection hvalid.1 h.printable) hset
    · rw [selections_setLoop hset]
      exact nodup_withSelection h.nodup
    · funext s i
      rw [get_value_setLoop hset, get_value_withSelection]
      by_cases hs : s = selection
      · by_cases hi : i = item
        · simp [Store.apply, hs, hi, mem_withSelection]
        · simp [Store.apply, hs, hi]
      · simp [Store.apply, hs]
  | remove selection =>
    obtain rfl := Option.some.inj hstep
    refine ⟨⟨?_, ?_⟩, ?_⟩
    · exact fun sec hsec => h.printable sec (List.mem_of_mem_eraseP hsec)
    · exact h.nodup.sublist (List.eraseP_sublist.map _)
    · funext s i
      rw [get_value_remove h.nodup]
      by_cases hs : s = selection <;> simp [Store.apply, hs]
  | save =>
    obtain rfl : fresh doc = doc' := Option.some.inj ((save_printable h.printable).symm.trans hstep)
    refine ⟨kept_fresh h, ?_⟩
    funext s i
    exact get_value_fresh

theorem Kept.exec {calls : List Call} (h : Kept doc) (hvalid : ∀ call ∈ calls, call.Valid)
    (hexec : exec step doc calls = some doc') :
    Kept doc' ∧ get_value doc' = calls.foldl Store.apply (get_value doc) := by
  induction calls generalizing doc with
  | nil =>
    obtain rfl := Option.some.inj hexec
    exact ⟨h, rfl⟩
  | cons call calls ih =>
    obtain ⟨hcall, hcalls⟩ := List.forall_mem_cons.mp hvalid
    obtain ⟨next, hstep, hexec⟩ := Option.bind_eq_some_iff.mp hexec
    obtain ⟨hnext, hvalue⟩ := h.call hcall hstep
    rw [List.foldl_cons, ← hvalue]
    exact ih hnext hcalls hexec

/-- The file is changed under its one name, gets a second selection and loses the first. -/
def smallCalls : List Call :=
  [.set [91, 97, 93] [107] [120], .set [91, 98, 93] [109] [121], .save, .remove [91, 97, 93]]

end Ini

end DCFabric
