import Crosswalk.Proofs.Json.Containers

/-!
# Texts that are refused

A list or an object is refused for the sake of its first item or entry that is refused.  What stands
in front of that one is read as it was written, and what follows is not looked at.  What no reader
may open is refused at its bracket.

* `Refused` : a text is refused by a reader, whatever follows.
* `Refused.list`, `Refused.object` : so is a list or an object with such a text in it.
* `refused_readObject_zero`, `refused_readList_none` : nothing is opened at the end of the depth.
* `readWhole_of_refused` : a text that is refused is refused as a whole.
-/

namespace Crosswalk.Json

open Text

variable {α β σ : Type} {cause : Cause}

/-- A reader fails on a text for a given cause. -/
def Fails (reader : Reader α) (s : List Char) (cause : Cause) : Prop :=
  ∃ unread, reader s = .error ⟨cause, unread⟩

/-- A loop fails on a text, however that came to be left. -/
def LoopFails (step : σ → (s : List Char) → Except Fault (Step σ α s)) (state : σ)
    (text : List Char) (cause : Cause) : Prop :=
  ∀ (s : List Char) (t : Rest s), t.text = text →
    ∃ unread, loop step state t = .error ⟨cause, unread⟩

/-- Whether a reader refuses a text for a given cause, whatever follows and whatever blanks stand in
front. -/
structure Refused (reader : Reader α) (text : List Char) (cause : Cause) : Prop where
  begins : ∃ c r, text = c :: r ∧ c.isWhitespace = false ∧ c ≠ ']'
  refuses : ∀ blanks rest, (∀ c ∈ blanks, c.isWhitespace = true) →
    Fails reader (blanks ++ (text ++ rest)) cause

/-! ### One reader after another -/

theorem Fails.andThen {reader : Reader α} {text : List Char} (h : Fails reader text cause)
    {s : List Char} (t : Rest s) (ht : t.text = text) :
    ∃ unread, t.read reader = .error ⟨cause, unread⟩ := by
  subst ht
  obtain ⟨unread, hread⟩ := h
  exact ⟨unread, Rest.read_of_error hread⟩

theorem Fails.readsOn {reader inner : Reader α} {s left : List Char} (h : Fails inner left cause)
    (hon : ReadsOn reader s inner left) : Fails reader s cause := by
  obtain ⟨t, hreader, ht⟩ := hon
  obtain ⟨unread, hread⟩ := h.andThen t ht
  exact ⟨unread, hreader.trans hread⟩

theorem Fails.map {reader : Reader α} {s : List Char} (h : Fails reader s cause) (f : α → β) :
    Fails (fun s => do let (a, t) ← reader s; return (f a, t)) s cause := by
  obtain ⟨unread, hread⟩ := h
  exact ⟨unread, by simp [hread, bind, Except.bind]⟩

theorem Refused.map {reader : Reader α} {text : List Char} (h : Refused reader text cause)
    (f : α → β) : Refused (fun s => do let (a, t) ← reader s; return (f a, t)) text cause where
  begins := h.begins
  refuses := fun blanks rest hblanks => (h.refuses blanks rest hblanks).map f

/-- A text that is refused is refused as a whole. -/
theorem readWhole_of_refused {reader : Reader α} {text : String}
    (h : Refused reader text.toList cause) :
    ∃ place, readWhole reader text = .error ⟨cause, place⟩ := by
  have hfails := h.refuses [] [] (by simp)
  rw [List.nil_append, List.append_nil] at hfails
  obtain ⟨unread, hread⟩ := hfails
  exact ⟨_, by simp only [readWhole, hread, Fault.inText]; rfl⟩

/-! ### Loops -/

section Loops

variable {step : σ → (s : List Char) → Except Fault (Step σ α s)} {state next : σ}
  {text left : List Char}

/-- A loop whose next step fails. -/
theorem LoopFails.now {unread : Nat} (h : step state text = .error ⟨cause, unread⟩) :
    LoopFails step state text cause := by
  intro s t ht
  subst ht
  exact ⟨unread, loop_of_error h⟩

/-- A loop that fails after one more step. -/
theorem LoopFails.later (h : Continues step state text next left)
    (hnext : LoopFails step next left cause) : LoopFails step state text cause := by
  intro s t ht
  subst ht
  obtain ⟨u, hstep, htext⟩ := h
  obtain ⟨unread, hloop⟩ := hnext s (t.andThen u.rest) htext
  exact ⟨unread, (loop_of_more hstep).trans hloop⟩

end Loops

/-! ### Lists -/

section Lists

variable {item : Reader α} {blanks : List Char}

/-- A comma and a refused item end the reading of a list. -/
theorem itemStep_refused (hblanks : ∀ c ∈ blanks, c.isWhitespace = true) {text : List Char}
    (h : Refused item text cause) (before : List α) (rest : List Char) :
    ∃ unread, itemStep item before (',' :: (blanks ++ (text ++ rest)))
      = .error ⟨cause, unread⟩ := by
  obtain ⟨l, t, ht, hstep⟩ := itemStep_comma hblanks h.begins before rest
  have hfails := h.refuses [] rest (by simp)
  obtain ⟨unread, hread⟩ := hfails.andThen t ht
  refine ⟨unread, ?_⟩
  rw [hstep, hread]
  rfl

variable {form : α → Value} {layout : Layout} {level : Nat}

/-- The items of a list up to the first one that is refused. -/
theorem itemStep_loop_refused (items : List α)
    (h : ∀ a ∈ items, Written item ((form a).chars layout level) a ∨
      Refused item ((form a).chars layout level) cause)
    (hsome : ∃ a ∈ items, Refused item ((form a).chars layout level) cause) (before : List α)
    (rest : List Char) :
    LoopFails (itemStep item) before
      (Value.itemChars layout level (items.map form) ++ rest) cause := by
  induction items generalizing before with
  | nil =>
    obtain ⟨a, ha, -⟩ := hsome
    cases ha
  | cons a items ih =>
    obtain ⟨ha, hitems⟩ := List.forall_mem_cons.1 h
    rw [List.map_cons, Value.itemChars]
    simp only [List.cons_append, List.append_assoc]
    by_cases hrefused : Refused item ((form a).chars layout level) cause
    · obtain ⟨unread, hstep⟩ := itemStep_refused (isWhitespace_gap layout level) hrefused before
        (Value.itemChars layout level (items.map form) ++ rest)
      exact .now hstep
    · have hwritten := ha.resolve_right hrefused
      have hlater : ∃ a ∈ items, Refused item ((form a).chars layout level) cause := by
        simpa [hrefused] using hsome
      have hstep := itemStep_item (isWhitespace_gap layout level) hwritten before
        (Value.itemChars layout level (items.map form) ++ rest)
      exact .later hstep (ih hitems hlater (a :: before))

/-- A list whose first item is refused. -/
theorem readItems_refused_first (hblanks : ∀ c ∈ blanks, c.isWhitespace = true) {text : List Char}
    (h : Refused item text cause) (rest : List Char) :
    Fails (readItems item) (blanks ++ (text ++ rest)) cause := by
  obtain ⟨t, ht, hitems⟩ := readItems_begin hblanks h.begins rest
  have hfails := h.refuses [] rest (by simp)
  obtain ⟨unread, hread⟩ := hfails.andThen t ht
  refine ⟨unread, ?_⟩
  rw [hitems, hread]
  rfl

/-- A list whose first item is read back, and one behind it is refused. -/
theorem readItems_refused_later (hblanks : ∀ c ∈ blanks, c.isWhitespace = true)
    {text : List Char} {a : α} (h : Written item text a) {rest : List Char}
    (hloop : LoopFails (itemStep item) [a] rest cause) :
    Fails (readItems item) (blanks ++ (text ++ rest)) cause := by
  obtain ⟨t, ht, hitems⟩ := readItems_begin hblanks h.begins rest
  obtain ⟨u, hread, hleft⟩ := (h.reads [] rest (by simp)).andThen t ht
  obtain ⟨unread, hfails⟩ := hloop _ u hleft
  refine ⟨unread, ?_⟩
  rw [hitems, hread]
  exact hfails

/-- **Lists.**  The text of a list is refused if the text of an item is, and those of the other items
are read back. -/
theorem Refused.list {items : List α}
    (h : ∀ a ∈ items, Written item ((form a).chars layout (level + 1)) a ∨
      Refused item ((form a).chars layout (level + 1)) cause)
    (hsome : ∃ a ∈ items, Refused item ((form a).chars layout (level + 1)) cause) :
    Refused (readList (some item)) ((Value.array (items.map form)).chars layout level) cause := by
  cases items with
  | nil =>
    obtain ⟨a, ha, -⟩ := hsome
    cases ha
  | cons a items =>
    obtain ⟨ha, hitems⟩ := List.forall_mem_cons.1 h
    have hgap := isWhitespace_gap layout (level + 1)
    have hbody : ∀ rest, Fails (readItems item) (layout.gap (level + 1)
        ++ ((form a).chars layout (level + 1) ++ (Value.itemChars layout (level + 1) (items.map form)
          ++ rest))) cause := by
      intro rest
      by_cases hrefused : Refused item ((form a).chars layout (level + 1)) cause
      · exact readItems_refused_first hgap hrefused _
      · have hlater : ∃ a ∈ items, Refused item ((form a).chars layout (level + 1)) cause := by
          simpa [hrefused] using hsome
        exact readItems_refused_later hgap (ha.resolve_right hrefused)
          (itemStep_loop_refused items hitems hlater [a] rest)
    refine ⟨⟨'[', _, by rw [List.map_cons, Value.chars], by decide, by decide⟩, ?_⟩
    intro blanks rest hblanks
    have hfails := hbody (layout.gap level ++ ']' :: rest)
    rw [List.map_cons, Value.chars]
    simp only [List.cons_append, List.append_assoc, List.nil_append]
    exact hfails.readsOn (readList_bracket item hblanks _)

end Lists

/-! ### Objects -/

/-- Whether what is done with some fields, one after the other, fails at one of them when their entries
are written. -/
inductive Stumbles (onField : OnField σ) (layout : Layout) (level : Nat) (cause : Cause) :
    σ → List (String × Value) → Prop
  | here {state : σ} {name : String} {v : Value} {fields : List (String × Value)}
      (h : ∀ rest, Fails (onField state name)
        (layout.colon ++ (v.chars layout level ++ rest)) cause) :
      Stumbles onField layout level cause state ((name, v) :: fields)
  | later {state next : σ} {name : String} {v : Value} {fields : List (String × Value)}
      (h : ∀ rest, Reads (onField state name) (layout.colon ++ (v.chars layout level ++ rest))
        next rest)
      (hrest : Stumbles onField layout level cause next fields) :
      Stumbles onField layout level cause state ((name, v) :: fields)

section Objects

variable {onField : OnField σ} {state next : σ} {layout : Layout} {level : Nat}
  {blanks : List Char}

/-- Fields that are taken stand in front of one that fails. -/
theorem Takes.stumbles {fields others : List (String × Value)}
    (h : Takes onField layout level state fields next)
    (hothers : Stumbles onField layout level cause next others) :
    Stumbles onField layout level cause state (fields ++ others) := by
  induction h with
  | nil => exact hothers
  | cons hfield _ ih => exact .later hfield (ih hothers)

/-- An entry that is refused after its colon. -/
theorem Refused.entry {reader : Reader α} {text : List Char} (h : Refused reader text cause)
    (layout : Layout) (rest : List Char) :
    Fails (readEntry reader) (layout.colon ++ (text ++ rest)) cause := by
  obtain ⟨gap, hcolon, hgap⟩ := exists_colon layout
  rw [hcolon]
  exact (h.refuses gap rest hgap).readsOn (readEntry_colon reader _)

/-- A field whose entry is refused, after its opened name. -/
theorem readField_refused {name : String} {text : List Char}
    (h : Fails (onField state name) text cause) :
    Fails (readField onField state) (name.toList.flatMap encodeChar ++ '"' :: text) cause := by
  obtain ⟨t, hname, htext⟩ := readString_encode name.toList text
  obtain ⟨unread, hfield⟩ := h.andThen t htext
  exact ⟨unread, by simp [readField, hname, String.ofList_toList, hfield, bind, Except.bind]⟩

/-- A comma and a field that is refused. -/
theorem fieldStep_refused (hblanks : ∀ c ∈ blanks, c.isWhitespace = true) {name : String}
    {text : List Char} (h : Fails (onField state name) text cause) :
    ∃ unread, fieldStep onField state (',' :: (blanks ++ (encodeString name ++ text)))
      = .error ⟨cause, unread⟩ := by
  rw [encodeString_append]
  obtain ⟨l, t, ht, hstep⟩ := fieldStep_comma hblanks state _
  obtain ⟨unread, hread⟩ := (readField_refused h).andThen t ht
  refine ⟨unread, ?_⟩
  rw [hstep, hread]
  rfl

/-- The fields of an object up to the first one that is refused. -/
theorem fieldStep_loop_refused {fields : List (String × Value)}
    (h : Stumbles onField layout level cause state fields) (rest : List Char) :
    LoopFails (fieldStep onField) state (Value.fieldChars layout level fields ++ rest) cause := by
  induction h with
  | here hfield =>
    rw [Value.fieldChars]
    simp only [List.cons_append, List.append_assoc]
    obtain ⟨unread, hstep⟩ := fieldStep_refused (isWhitespace_gap layout level) (hfield _)
    exact .now hstep
  | later hfield _ ih =>
    rw [Value.fieldChars]
    simp only [List.cons_append, List.append_assoc]
    exact .later (fieldStep_field (isWhitespace_gap layout level) (hfield _)) ih

/-- An object whose first field is refused. -/
theorem readFields_refused_first (hblanks : ∀ c ∈ blanks, c.isWhitespace = true) {name : String}
    {text : List Char} (h : Fails (onField state name) text cause) :
    Fails (readFields onField state) (blanks ++ (encodeString name ++ text)) cause := by
  rw [encodeString_append]
  obtain ⟨t, ht, hfields⟩ := readFields_quote hblanks state _
  obtain ⟨unread, hread⟩ := (readField_refused h).andThen t ht
  refine ⟨unread, ?_⟩
  rw [hfields, hread]
  rfl

/-- An object whose first field is read, and one behind it is refused. -/
theorem readFields_refused_later (hblanks : ∀ c ∈ blanks, c.isWhitespace = true) {name : String}
    {text rest : List Char} (h : Reads (onField state name) text next rest)
    (hloop : LoopFails (fieldStep onField) next rest cause) :
    Fails (readFields onField state) (blanks ++ (encodeString name ++ text)) cause := by
  rw [encodeString_append]
  obtain ⟨t, ht, hfields⟩ := readFields_quote hblanks state _
  obtain ⟨u, hread, hleft⟩ := (readField_encode h).andThen t ht
  obtain ⟨unread, hfails⟩ := hloop _ u hleft
  refine ⟨unread, ?_⟩
  rw [hfields, hread]
  exact hfails

/-- What follows the opening brace of an object with a field that is refused. -/
theorem readFields_refused {fields : List (String × Value)}
    (h : Stumbles onField layout (level + 1) cause state fields) :
    ∃ body, (Value.object fields).chars layout level = '{' :: body ∧
      ∀ rest, Fails (readFields onField state) (body ++ rest) cause := by
  have hgap := isWhitespace_gap layout (level + 1)
  cases h with
  | here hfield =>
    refine ⟨_, by rw [Value.chars], ?_⟩
    intro rest
    simp only [List.append_assoc]
    exact readFields_refused_first hgap (hfield _)
  | later hfield hfields =>
    refine ⟨_, by rw [Value.chars], ?_⟩
    intro rest
    simp only [List.append_assoc]
    exact readFields_refused_later hgap (hfield _) (fieldStep_loop_refused hfields _)

variable {record : Record σ α}

/-- **Objects.**  The text of an object is refused as a record if a field is, and those in front of it
can be taken. -/
theorem Refused.object {fields : List (String × Value)}
    (h : Stumbles record.onField layout (level + 1) cause record.blank fields) {depth : Nat}
    (hdepth : depth ≠ 0) :
    Refused (record.readObject depth) ((Value.object fields).chars layout level) cause := by
  obtain ⟨body, hbody, hfields⟩ := readFields_refused h
  rw [hbody]
  refine ⟨⟨'{', body, rfl, by decide, by decide⟩, ?_⟩
  intro blanks rest hblanks
  have hfinished : Fails (record.finished (readFields record.onField record.blank)) (body ++ rest)
      cause := by
    obtain ⟨unread, hread⟩ := hfields rest
    exact ⟨unread, by simp [Record.finished, hread, bind, Except.bind]⟩
  exact hfinished.readsOn (record.readObject_brace hdepth hblanks (body ++ rest))

/-- An object that is refused is refused where an array could stand as well. -/
theorem Refused.ofReadObject {depth : Nat} {fields : List (String × Value)}
    (h : Refused (record.readObject depth) ((Value.object fields).chars layout level) cause) :
    Refused (record.read depth) ((Value.object fields).chars layout level) cause := by
  obtain ⟨body, hbody⟩ := exists_chars_object fields layout level
  rw [hbody] at h ⊢
  refine ⟨h.begins, ?_⟩
  intro blanks rest hblanks
  have hfails := h.refuses [] rest (by simp)
  exact hfails.readsOn (record.read_brace depth hblanks (body ++ rest))

/-- A field of a record that has no entry yet refuses the entry that is written for it. -/
theorem Refused.declared {name : String} {text : List Char} {field : Field σ}
    (h : Refused (field.read state) text cause)
    (hfind : record.fields.find? (fun f => f.name == name) = some field)
    (hset : field.isSet state = false) (layout : Layout) (rest : List Char) :
    Fails (record.onField state name) (layout.colon ++ (text ++ rest)) cause := by
  rw [onField_declared hfind hset]
  exact h.entry layout rest

/-! ### The end of the depth -/

/-- No object is opened at the end of the depth. -/
theorem refused_readObject_zero (fields : List (String × Value)) :
    Refused (record.readObject 0) ((Value.object fields).chars layout level)
      (.grammar .tooDeep) := by
  obtain ⟨body, hbody⟩ := exists_chars_object fields layout level
  rw [hbody]
  refine ⟨⟨'{', body, rfl, by decide, by decide⟩, ?_⟩
  intro blanks rest hblanks
  obtain ⟨hle, hskip⟩ := skipBlank_append hblanks (c := '{') (by decide) (body ++ rest)
  refine ⟨byteCount ('{' :: (body ++ rest)) - 1, ?_⟩
  rw [List.cons_append, Record.readObject, hskip]
  rfl

/-- No list is opened at the end of the depth. -/
theorem refused_readList_none (items : List Value) :
    Refused (readList (none : Option (Reader α))) ((Value.array items).chars layout level)
      (.grammar .tooDeep) := by
  obtain ⟨body, hbody⟩ : ∃ body, (Value.array items).chars layout level = '[' :: body := by
    cases items with
    | nil => exact ⟨_, rfl⟩
    | cons v rest => exact ⟨_, by rw [Value.chars]⟩
  rw [hbody]
  refine ⟨⟨'[', body, rfl, by decide, by decide⟩, ?_⟩
  intro blanks rest hblanks
  obtain ⟨hle, hskip⟩ := skipBlank_append hblanks (c := '[') (by decide) (body ++ rest)
  refine ⟨byteCount ('[' :: (body ++ rest)) - 1, ?_⟩
  rw [List.cons_append, readList, hskip]
  rfl

end Objects

end Crosswalk.Json
