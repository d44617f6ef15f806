import Crosswalk.Proofs.Json.Strings

/-!
# Reading written lists and records

A list or an object that was written is read item by item and field by field.  What is known of the
items and of the entries is that their texts are read back, whatever follows; the loops then
read all of them, in either layout.

* `Written` : a text is read back by a reader.
* `Written.list` : so is the text of a list of such texts.
* `Written.object` : so is the text of an object whose fields are taken one after the other.
* `readWhole_of_written` : a text that is read back is read as a whole.
-/

namespace Crosswalk.Json

open Text

variable {α σ : Type}

/-- Whether a reader reads `a` back from a text, whatever follows and whatever blanks stand in
front. -/
structure Written (reader : Reader α) (text : List Char) (a : α) : Prop where
  begins : ∃ c r, text = c :: r ∧ c.isWhitespace = false ∧ c ≠ ']'
  reads : ∀ blanks rest, (∀ c ∈ blanks, c.isWhitespace = true) →
    Reads reader (blanks ++ (text ++ rest)) a rest

theorem written_readText (s : String) : Written readText (encodeString s) s where
  begins := ⟨'"', s.toList.flatMap encodeChar ++ ['"'], rfl, by decide, by decide⟩
  reads := fun _ rest hblanks => readText_encodeString hblanks s rest

theorem written_readValue (depth : Nat) (s : String) :
    Written (readValue depth) (encodeString s) (.string s) where
  begins := (written_readText s).begins
  reads := fun _ rest hblanks => readValue_encodeString depth hblanks s rest

/-- The word for a choice is read as that choice, whether or not an object may be opened. -/
theorem written_readChoice (depth : Nat) {choices : List (String × α)} {name : String} {a : α}
    (h : Fields.get? name choices = some a) :
    Written (readChoice depth choices) (encodeString name) a where
  begins := (written_readText name).begins
  reads := by
    intro blanks rest hblanks
    have hword : Reads (readWordOf choices) (name.toList.flatMap encodeChar ++ '"' :: rest) a
        rest := by
      obtain ⟨t, hread, htext⟩ := readString_encode name.toList rest
      refine ⟨t, ?_, htext⟩
      simp [readWordOf, hread, choose, h, String.ofList_toList, bind, Except.bind, pure,
        Except.pure]
    have hopen : ∀ text, ReadsOn (readChoice depth choices) (blanks ++ '"' :: text)
        (readWordOf choices) text := by
      intro text
      obtain ⟨hle, hskip⟩ := skipBlank_append hblanks (c := '"') (by decide) text
      refine ⟨(Left.mk text hle).rest, ?_, rfl⟩
      rw [readChoice, hskip]
      rfl
    rw [encodeString_append]
    exact (hopen _).reads hword

/-- The mark `true` is read as that mark. -/
theorem written_readFlag_true (layout : Layout) (level : Nat) :
    Written readFlag ((Value.bool true).chars layout level) true where
  begins := ⟨'t', ['r', 'u', 'e'], rfl, by decide, by decide⟩
  reads := by
    intro blanks rest hblanks
    obtain ⟨hle, hskip⟩ := skipBlank_append hblanks (c := 't') (by decide)
      ('r' :: 'u' :: 'e' :: rest)
    have hword : Reads (fun s => do return (true, ← readWord ['r', 'u', 'e'] s))
        ('r' :: 'u' :: 'e' :: rest) true rest :=
      ⟨_, rfl, rfl⟩
    obtain ⟨t, hread, htext⟩ := hword.andThen (Left.mk _ hle).rest rfl
    refine ⟨t, ?_, htext⟩
    change readFlag (blanks ++ 't' :: 'r' :: 'u' :: 'e' :: rest) = _
    rw [readFlag, hskip]
    exact hread

theorem isWhitespace_gap (layout : Layout) (level : Nat) :
    ∀ c ∈ layout.gap level, c.isWhitespace = true := by
  intro c hc
  cases layout with
  | compact => cases hc
  | indented =>
    rcases List.mem_cons.1 hc with rfl | hc
    · decide
    · rw [List.eq_of_mem_replicate hc]
      decide

/-- A text that is read back is read as a whole. -/
theorem readWhole_of_written {reader : Reader α} {text : String} {a : α}
    (h : Written reader text.toList a) : readWhole reader text = .ok a := by
  have hreads := h.reads [] [] (by simp)
  rw [List.nil_append, List.append_nil] at hreads
  obtain ⟨t, hread, htext⟩ := hreads
  have hend : (skipBlank t.text).text = [] := by
    rw [htext]
    rfl
  simp [readWhole, hread, hend]

/-! ### Signs -/

section Signs

variable {blanks : List Char}

/-- A layout has a colon with blanks behind it. -/
theorem exists_colon (layout : Layout) :
    ∃ gap, layout.colon = ':' :: gap ∧ ∀ c ∈ gap, c.isWhitespace = true := by
  cases layout with
  | compact => exact ⟨[], rfl, by simp⟩
  | indented => exact ⟨[' '], rfl, List.forall_mem_singleton.2 rfl⟩

/-- An entry follows its colon. -/
theorem readEntry_colon (entry : Reader α) (rest : List Char) :
    ReadsOn (readEntry entry) (':' :: rest) entry rest := by
  obtain ⟨hle, hskip⟩ := skipBlank_cons (c := ':') (by decide) rest
  refine ⟨(Left.mk rest hle).rest, ?_, rfl⟩
  rw [readEntry, hskip]
  rfl

/-- A bracket opens a list. -/
theorem readList_bracket (item : Reader α) (hblanks : ∀ c ∈ blanks, c.isWhitespace = true)
    (rest : List Char) :
    ReadsOn (readList (some item)) (blanks ++ '[' :: rest) (readItems item) rest := by
  obtain ⟨hle, hskip⟩ := skipBlank_append hblanks (c := '[') (by decide) rest
  refine ⟨(Left.mk rest hle).rest, ?_, rfl⟩
  rw [readList, hskip]
  rfl

/-- A brace opens an object while the depth lasts. -/
theorem Record.readObject_brace (record : Record σ α) {depth : Nat} (hdepth : depth ≠ 0)
    (hblanks : ∀ c ∈ blanks, c.isWhitespace = true) (rest : List Char) :
    ReadsOn (record.readObject depth) (blanks ++ '{' :: rest)
      (record.finished (readFields record.onField record.blank)) rest := by
  obtain ⟨hle, hskip⟩ := skipBlank_append hblanks (c := '{') (by decide) rest
  refine ⟨(Left.mk rest hle).rest, ?_, rfl⟩
  rw [Record.readObject, hskip]
  simp [hdepth]

/-- A brace opens an object, also where an array could stand. -/
theorem Record.read_brace (record : Record σ α) (depth : Nat)
    (hblanks : ∀ c ∈ blanks, c.isWhitespace = true) (rest : List Char) :
    ReadsOn (record.read depth) (blanks ++ '{' :: rest) (record.readObject depth)
      ('{' :: rest) := by
  obtain ⟨hle, hskip⟩ := skipBlank_append hblanks (c := '{') (by decide) rest
  refine ⟨Rest.mk ('{' :: rest) hle, ?_, rfl⟩
  rw [Record.read, hskip]
  rfl

end Signs

/-! ### Lists -/

section Lists

variable {item : Reader α} {blanks : List Char}

/-- What begins with no bracket is the first item of a list. -/
theorem readItems_begin (hblanks : ∀ c ∈ blanks, c.isWhitespace = true) {text : List Char}
    (hbegins : ∃ c r, text = c :: r ∧ c.isWhitespace = false ∧ c ≠ ']') (rest : List Char) :
    ∃ t : Rest (blanks ++ (text ++ rest)), t.text = text ++ rest ∧
      readItems item (blanks ++ (text ++ rest))
        = t.read item >>= fun (a, u) => loop (itemStep item) [a] u := by
  obtain ⟨d, r, rfl, hd, hne⟩ := hbegins
  obtain ⟨hle, hskip⟩ := skipBlank_append hblanks hd (r ++ rest)
  refine ⟨Rest.mk (d :: (r ++ rest)) hle, rfl, ?_⟩
  change readItems item (blanks ++ d :: (r ++ rest)) = _
  rw [readItems, hskip]
  simp [hne]

/-- What begins with no bracket is one more item of a list, behind a comma. -/
theorem itemStep_comma (hblanks : ∀ c ∈ blanks, c.isWhitespace = true) {text : List Char}
    (hbegins : ∃ c r, text = c :: r ∧ c.isWhitespace = false ∧ c ≠ ']') (before : List α)
    (rest : List Char) :
    ∃ (l : Left (',' :: (blanks ++ (text ++ rest)))) (t : Rest l.text), t.text = text ++ rest ∧
      itemStep item before (',' :: (blanks ++ (text ++ rest)))
        = t.read item >>= fun (a, u) => .ok (.more (a :: before) (l.andThen u)) := by
  obtain ⟨d, r, rfl, hd, hne⟩ := hbegins
  obtain ⟨hcomma, hskipComma⟩ := skipBlank_cons (c := ',') (by decide)
    (blanks ++ d :: (r ++ rest))
  obtain ⟨hitem, hskipItem⟩ := skipBlank_append hblanks hd (r ++ rest)
  refine ⟨Left.mk (blanks ++ d :: (r ++ rest)) hcomma, Rest.mk (d :: (r ++ rest)) hitem, rfl, ?_⟩
  change itemStep item before (',' :: (blanks ++ d :: (r ++ rest))) = _
  rw [itemStep, hskipComma]
  simp only
  rw [hskipItem]
  simp only [hne, if_false]
  rfl

/-- The closing bracket ends a list. -/
theorem itemStep_close (hblanks : ∀ c ∈ blanks, c.isWhitespace = true) (before : List α)
    (rest : List Char) :
    Ends (itemStep item) before (blanks ++ ']' :: rest) before.reverse rest := by
  obtain ⟨hle, hskip⟩ := skipBlank_append hblanks (c := ']') (by decide) rest
  refine ⟨(Left.mk rest hle).rest, ?_, rfl⟩
  rw [itemStep, hskip]
  rfl

/-- A comma and a written item add that item. -/
theorem itemStep_item (hblanks : ∀ c ∈ blanks, c.isWhitespace = true) {text : List Char} {a : α}
    (h : Written item text a) (before : List α) (rest : List Char) :
    Continues (itemStep item) before (',' :: (blanks ++ (text ++ rest))) (a :: before) rest := by
  obtain ⟨l, t, ht, hstep⟩ := itemStep_comma hblanks h.begins before rest
  obtain ⟨u, hread, htext⟩ := (h.reads [] rest (by simp)).andThen t ht
  refine ⟨l.andThen u, ?_, htext⟩
  rw [hstep, hread]
  rfl

/-- What is read of a written list after some items. -/
theorem itemStep_loop {form : α → Value} {layout : Layout} {level : Nat} (items : List α)
    (h : ∀ a ∈ items, Written item ((form a).chars layout level) a)
    (hblanks : ∀ c ∈ blanks, c.isWhitespace = true) (before : List α) (rest : List Char) :
    LoopReads (itemStep item) before
      (Value.itemChars layout level (items.map form) ++ (blanks ++ ']' :: rest))
      (before.reverse ++ items) rest := by
  induction items generalizing before with
  | nil =>
    rw [List.map_nil, Value.itemChars, List.nil_append, List.append_nil]
    exact .done (itemStep_close hblanks before rest)
  | cons a items ih =>
    obtain ⟨ha, hitems⟩ := List.forall_mem_cons.1 h
    have hnext := ih hitems (a :: before)
    have hstep := itemStep_item (isWhitespace_gap layout level) ha before
      (Value.itemChars layout level (items.map form) ++ (blanks ++ ']' :: rest))
    rw [List.reverse_cons, List.append_assoc] at hnext
    rw [List.map_cons, Value.itemChars]
    simp only [List.cons_append, List.append_assoc]
    exact .more hstep hnext

/-- A list whose first item is read back. -/
theorem readItems_item (hblanks : ∀ c ∈ blanks, c.isWhitespace = true) {text : List Char} {a : α}
    (h : Written item text a) {rest last : List Char} {items : List α}
    (hloop : LoopReads (itemStep item) [a] rest items last) :
    Reads (readItems item) (blanks ++ (text ++ rest)) items last := by
  obtain ⟨t, ht, hitems⟩ := readItems_begin hblanks h.begins rest
  obtain ⟨u, hread, hleft⟩ := (h.reads [] rest (by simp)).andThen t ht
  obtain ⟨v, hlater, hlast⟩ := hloop _ u hleft
  refine ⟨v, ?_, hlast⟩
  rw [hitems, hread]
  exact hlater

/-- What follows the opening bracket of a written list is read as its items. -/
theorem readItems_array {form : α → Value} {layout : Layout} {level : Nat} (items : List α)
    (h : ∀ a ∈ items, Written item ((form a).chars layout (level + 1)) a) :
    ∃ body, (Value.array (items.map form)).chars layout level = '[' :: body ∧
      ∀ rest, Reads (readItems item) (body ++ rest) items rest := by
  cases items with
  | nil =>
    refine ⟨[']'], rfl, ?_⟩
    intro rest
    rw [List.singleton_append]
    obtain ⟨hle, hskip⟩ := skipBlank_cons (c := ']') (by decide) rest
    refine ⟨(Left.mk rest hle).rest, ?_, rfl⟩
    rw [readItems, hskip]
    rfl
  | cons a items =>
    obtain ⟨ha, hitems⟩ := List.forall_mem_cons.1 h
    refine ⟨layout.gap (level + 1) ++ (form a).chars layout (level + 1)
      ++ Value.itemChars layout (level + 1) (items.map form) ++ layout.gap level ++ [']'],
      by rw [List.map_cons, Value.chars], ?_⟩
    intro rest
    have hloop := itemStep_loop items hitems (isWhitespace_gap layout level) [a] rest
    simp only [List.append_assoc]
    exact readItems_item (isWhitespace_gap layout (level + 1)) ha hloop

/-- **Lists.**  The text of a list is read back if the texts of its items are. -/
theorem Written.list {form : α → Value} {layout : Layout} {level : Nat} {items : List α}
    (h : ∀ a ∈ items, Written item ((form a).chars layout (level + 1)) a) :
    Written (readList (some item)) ((Value.array (items.map form)).chars layout level) items := by
  obtain ⟨body, hbody, hitems⟩ := readItems_array items h
  rw [hbody]
  refine ⟨⟨'[', body, rfl, by decide, by decide⟩, ?_⟩
  intro blanks rest hblanks
  exact (readList_bracket item hblanks (body ++ rest)).reads (hitems rest)

end Lists

/-! ### Objects -/

/-- Whether what is done with some fields, one after the other, leads from one state to another when
their entries are written. -/
inductive Takes (onField : OnField σ) (layout : Layout) (level : Nat) :
    σ → List (String × Value) → σ → Prop
  | nil (state : σ) : Takes onField layout level state [] state
  | cons {state next last : σ} {name : String} {v : Value} {fields : List (String × Value)}
      (h : ∀ rest, Reads (onField state name) (layout.colon ++ (v.chars layout level ++ rest))
        next rest)
      (hrest : Takes onField layout level next fields last) :
      Takes onField layout level state ((name, v) :: fields) last

section Objects

variable {onField : OnField σ} {state next last : σ} {layout : Layout} {level : Nat}
  {blanks : List Char}

/-- Fields that are taken may stand in front of others. -/
theorem Takes.append {fields others : List (String × Value)}
    (h : Takes onField layout level state fields next)
    (hothers : Takes onField layout level next others last) :
    Takes onField layout level state (fields ++ others) last := by
  induction h with
  | nil => exact hothers
  | cons hfield _ ih => exact .cons hfield (ih hothers)

/-- An entry is read after a colon. -/
theorem Written.entry {reader : Reader α} {text : List Char} {a : α} (h : Written reader text a)
    (layout : Layout) (rest : List Char) :
    Reads (readEntry reader) (layout.colon ++ (text ++ rest)) a rest := by
  obtain ⟨gap, hcolon, hgap⟩ := exists_colon layout
  rw [hcolon]
  exact (readEntry_colon reader _).reads (h.reads gap rest hgap)

/-- A name that has been opened is read with its field. -/
theorem readField_encode {name : String} {text rest : List Char}
    (h : Reads (onField state name) text next rest) :
    Reads (readField onField state) (name.toList.flatMap encodeChar ++ '"' :: text) next rest := by
  obtain ⟨t, hname, htext⟩ := readString_encode name.toList text
  obtain ⟨u, hfield, hrest⟩ := h.andThen t htext
  refine ⟨u, ?_, hrest⟩
  simp [readField, hname, String.ofList_toList, hfield, bind, Except.bind]

/-- A quote opens the name of the first field of an object. -/
theorem readFields_quote (hblanks : ∀ c ∈ blanks, c.isWhitespace = true) (state : σ)
    (text : List Char) :
    ∃ t : Rest (blanks ++ '"' :: text), t.text = text ∧
      readFields onField state (blanks ++ '"' :: text)
        = t.read (readField onField state) >>= fun (next, u) =>
            loop (fieldStep onField) next u := by
  obtain ⟨hle, hskip⟩ := skipBlank_append hblanks (c := '"') (by decide) text
  refine ⟨(Left.mk text hle).rest, rfl, ?_⟩
  rw [readFields, hskip]
  rfl

/-- A comma and a quote open the name of one more field of an object. -/
theorem fieldStep_comma (hblanks : ∀ c ∈ blanks, c.isWhitespace = true) (state : σ)
    (text : List Char) :
    ∃ (l : Left (',' :: (blanks ++ '"' :: text))) (t : Rest l.text), t.text = text ∧
      fieldStep onField state (',' :: (blanks ++ '"' :: text))
        = t.read (readField onField state) >>= fun (next, u) =>
            .ok (.more next (l.andThen u)) := by
  obtain ⟨hcomma, hskipComma⟩ := skipBlank_cons (c := ',') (by decide) (blanks ++ '"' :: text)
  obtain ⟨hquote, hskipQuote⟩ := skipBlank_append hblanks (c := '"') (by decide) text
  refine ⟨Left.mk _ hcomma, (Left.mk text hquote).rest, rfl, ?_⟩
  rw [fieldStep, hskipComma]
  simp only
  rw [hskipQuote]
  rfl

/-- The closing brace ends an object. -/
theorem fieldStep_close (hblanks : ∀ c ∈ blanks, c.isWhitespace = true) (state : σ)
    (rest : List Char) : Ends (fieldStep onField) state (blanks ++ '}' :: rest) state rest := by
  obtain ⟨hle, hskip⟩ := skipBlank_append hblanks (c := '}') (by decide) rest
  refine ⟨(Left.mk rest hle).rest, ?_, rfl⟩
  rw [fieldStep, hskip]
  rfl

/-- A comma and a written field do what is to be done with the field. -/
theorem fieldStep_field (hblanks : ∀ c ∈ blanks, c.isWhitespace = true) {name : String}
    {text rest : List Char} (h : Reads (onField state name) text next rest) :
    Continues (fieldStep onField) state (',' :: (blanks ++ (encodeString name ++ text))) next
      rest := by
  rw [encodeString_append]
  obtain ⟨l, t, ht, hstep⟩ := fieldStep_comma hblanks state _
  obtain ⟨u, hread, htext⟩ := (readField_encode h).andThen t ht
  refine ⟨l.andThen u, ?_, htext⟩
  rw [hstep, hread]
  rfl

/-- What is read of a written object after some fields. -/
theorem fieldStep_loop {fields : List (String × Value)}
    (h : Takes onField layout level state fields last)
    (hblanks : ∀ c ∈ blanks, c.isWhitespace = true) (rest : List Char) :
    LoopReads (fieldStep onField) state
      (Value.fieldChars layout level fields ++ (blanks ++ '}' :: rest)) last rest := by
  induction h with
  | nil state =>
    rw [Value.fieldChars, List.nil_append]
    exact .done (fieldStep_close hblanks state rest)
  | cons hfield _ ih =>
    rw [Value.fieldChars]
    simp only [List.cons_append, List.append_assoc]
    exact .more (fieldStep_field (isWhitespace_gap layout level) (hfield _)) ih

/-- An object whose first field is read. -/
theorem readFields_field (hblanks : ∀ c ∈ blanks, c.isWhitespace = true) {name : String}
    {text rest final : List Char} (h : Reads (onField state name) text next rest)
    (hloop : LoopReads (fieldStep onField) next rest last final) :
    Reads (readFields onField state) (blanks ++ (encodeString name ++ text)) last final := by
  rw [encodeString_append]
  obtain ⟨t, ht, hfields⟩ := readFields_quote hblanks state _
  obtain ⟨u, hread, hleft⟩ := (readField_encode h).andThen t ht
  obtain ⟨v, hlater, hfinal⟩ := hloop _ u hleft
  refine ⟨v, ?_, hfinal⟩
  rw [hfields, hread]
  exact hlater

/-- What follows the opening brace of a written object is read by taking its fields. -/
theorem readFields_object {fields : List (String × Value)}
    (h : Takes onField layout (level + 1) state fields last) :
    ∃ body, (Value.object fields).chars layout level = '{' :: body ∧
      ∀ rest, Reads (readFields onField state) (body ++ rest) last rest := by
  cases h with
  | nil =>
    refine ⟨['}'], rfl, ?_⟩
    intro rest
    rw [List.singleton_append]
    obtain ⟨hle, hskip⟩ := skipBlank_cons (c := '}') (by decide) rest
    refine ⟨(Left.mk rest hle).rest, ?_, rfl⟩
    rw [readFields, hskip]
    rfl
  | @cons _ next _ name v fields hfield hfields =>
    refine ⟨layout.gap (level + 1) ++ encodeString name ++ layout.colon
      ++ v.chars layout (level + 1) ++ Value.fieldChars layout (level + 1) fields
      ++ layout.gap level ++ ['}'], by rw [Value.chars], ?_⟩
    intro rest
    have hloop := fieldStep_loop hfields (isWhitespace_gap layout level) rest
    simp only [List.append_assoc]
    exact readFields_field (isWhitespace_gap layout (level + 1)) (hfield _) hloop

/-- **Objects.**  The text of an object is read back as a record if its fields can be taken one after
the other and make that record. -/
theorem Written.object {record : Record σ α} {fields : List (String × Value)} {draft : σ} {a : α}
    (htakes : Takes record.onField layout (level + 1) record.blank fields draft)
    (hfinish : record.finish draft = .ok a) {depth : Nat} (hdepth : depth ≠ 0) :
    Written (record.readObject depth) ((Value.object fields).chars layout level) a := by
  obtain ⟨body, hbody, hfields⟩ := readFields_object htakes
  rw [hbody]
  refine ⟨⟨'{', body, rfl, by decide, by decide⟩, ?_⟩
  intro blanks rest hblanks
  have hfinished : Reads (record.finished (readFields record.onField record.blank))
      (body ++ rest) a rest := by
    obtain ⟨t, hread, htext⟩ := hfields rest
    refine ⟨t, ?_, htext⟩
    simp [Record.finished, hread, hfinish, bind, Except.bind, pure, Except.pure]
  exact (record.readObject_brace hdepth hblanks (body ++ rest)).reads hfinished

theorem exists_chars_object (fields : List (String × Value)) (layout : Layout) (level : Nat) :
    ∃ body, (Value.object fields).chars layout level = '{' :: body := by
  cases fields with
  | nil => exact ⟨_, rfl⟩
  | cons f rest => exact ⟨_, by rw [Value.chars]⟩

/-- An object that is read back is read back where an array could stand as well. -/
theorem Written.ofReadObject {record : Record σ α} {depth : Nat}
    {fields : List (String × Value)} {a : α}
    (h : Written (record.readObject depth) ((Value.object fields).chars layout level) a) :
    Written (record.read depth) ((Value.object fields).chars layout level) a := by
  obtain ⟨body, hbody⟩ := exists_chars_object fields layout level
  rw [hbody] at h ⊢
  refine ⟨h.begins, ?_⟩
  intro blanks rest hblanks
  have hreads := h.reads [] rest (by simp)
  exact (record.read_brace depth hblanks (body ++ rest)).reads hreads

/-! ### Fields of records -/

variable {record : Record σ α} {name : String} {text : List Char}

/-- What is done with a field of a record that has no entry yet. -/
theorem onField_declared {field : Field σ}
    (hfind : record.fields.find? (fun f => f.name == name) = some field)
    (hset : field.isSet state = false) :
    record.onField state name = readEntry (field.read state) := by
  funext s
  simp [Record.onField, hfind, hset]

/-- A field of a record that has no entry yet takes the entry that is written for it. -/
theorem Written.declared {field : Field σ} (h : Written (field.read state) text next)
    (hfind : record.fields.find? (fun f => f.name == name) = some field)
    (hset : field.isSet state = false) (layout : Layout) (rest : List Char) :
    Reads (record.onField state name) (layout.colon ++ (text ++ rest)) next rest := by
  rw [onField_declared hfind hset]
  exact h.entry layout rest

/-- Any other field is left to what the record does with such. -/
theorem onField_other (hfind : record.fields.find? (fun f => f.name == name) = none) :
    record.onField state name = record.other state name := by
  funext s
  simp [Record.onField, hfind]

/-- What is made of what a written text is read as. -/
theorem Written.map {β : Type} {reader : Reader α} {a : α} (h : Written reader text a)
    (f : α → β) : Written (fun s => do let (a, t) ← reader s; return (f a, t)) text (f a) where
  begins := h.begins
  reads := fun blanks rest hblanks => (h.reads blanks rest hblanks).map f

end Objects

end Crosswalk.Json
