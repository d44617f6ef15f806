/-!
# What is left of a text

A reader takes characters from the front of a text and hands on what is left.  The type of what is
left says what can have been taken: a `Rest` of a text is no longer than it, and a `Left` of it is
shorter.  All reading that goes on and on is one loop, which ends because each of its steps leaves
less than it was given.

* `Rest.ext` : only the text that is left matters, not how it came to be left.
* `Rest.read_of_ok`, `Rest.read_of_error` : reading on is reading what is left.
* `loop_of_error`, `loop_of_done`, `loop_of_more` : what a loop does, by its next step.
-/

namespace Crosswalk.Text

/-- What is left of a text after some of its characters, or none. -/
@[ext] structure Rest (s : List Char) where
  text : List Char
  le : text.length ≤ s.length

/-- What is left of a text after at least one of its characters. -/
@[ext] structure Left (s : List Char) where
  text : List Char
  lt : text.length < s.length

namespace Rest

/-- A text of which nothing has been taken. -/
def all (s : List Char) : Rest s :=
  ⟨s, Nat.le_refl _⟩

/-- What is left after a number of characters. -/
def drop (n : Nat) (s : List Char) : Rest s :=
  ⟨s.drop n, (List.drop_suffix n s).length_le⟩

/-- What is left of what was left. -/
def andThen {s : List Char} (t : Rest s) (u : Rest t.text) : Rest s :=
  ⟨u.text, Nat.le_trans u.le t.le⟩

/-- All of a text but its first character. -/
def tail (c : Char) (s : List Char) : Rest (c :: s) :=
  ⟨s, Nat.le_succ _⟩

/-- What is left of a text, seen from one character before it. -/
def past {c : Char} {s : List Char} (t : Rest s) : Left (c :: s) :=
  ⟨t.text, Nat.lt_succ_of_le t.le⟩

end Rest

namespace Left

/-- What is left, no matter whether anything was taken. -/
def rest {s : List Char} (t : Left s) : Rest s :=
  ⟨t.text, Nat.le_of_lt t.lt⟩

/-- What is left of what was left. -/
def andThen {s : List Char} (t : Left s) (u : Rest t.text) : Left s :=
  ⟨u.text, Nat.lt_of_le_of_lt u.le t.lt⟩

end Left

@[simp] theorem Rest.text_all (s : List Char) : (Rest.all s).text = s := rfl

@[simp] theorem Rest.text_drop (n : Nat) (s : List Char) : (Rest.drop n s).text = s.drop n := rfl

@[simp] theorem Rest.text_tail (c : Char) (s : List Char) : (Rest.tail c s).text = s := rfl

@[simp] theorem Rest.text_andThen {s : List Char} (t : Rest s) (u : Rest t.text) :
    (t.andThen u).text = u.text := rfl

@[simp] theorem Rest.text_past {c : Char} {s : List Char} (t : Rest s) :
    (t.past : Left (c :: s)).text = t.text := rfl

@[simp] theorem Left.text_rest {s : List Char} (t : Left s) : t.rest.text = t.text := rfl

@[simp] theorem Left.text_andThen {s : List Char} (t : Left s) (u : Rest t.text) :
    (t.andThen u).text = u.text := rfl

/-! ### Taking characters -/

/-- Dropping characters makes a text no longer. -/
theorem length_dropWhile_le (p : Char → Bool) (s : List Char) :
    (s.dropWhile p).length ≤ s.length :=
  (List.dropWhile_suffix p).length_le

/-- A text without the accepted characters at its front. -/
def skip (accepts : Char → Bool) (s : List Char) : Rest s :=
  ⟨s.dropWhile accepts, length_dropWhile_le accepts s⟩

/-- A text without the spaces, tabs and line ends at its front. -/
def skipBlank (s : List Char) : Rest s :=
  skip Char.isWhitespace s

/-- What is left after the spaces, tabs and line ends at its front. -/
def Rest.pastBlank {s : List Char} (t : Rest s) : Rest s :=
  t.andThen (skipBlank t.text)

/-- What follows a word, if a text begins with it. -/
def afterWord? : (word s : List Char) → Option (Rest s)
  | [], s => some (.all s)
  | _ :: _, [] => none
  | w :: word, c :: s =>
    if c = w then (afterWord? word s).map fun t => t.past.rest else none

/-- Divides a text in front of the first occurrence of another one, or at its end. -/
def divideBefore (stop : List Char) (s : List Char) : List Char × List Char :=
  go [] s
where
  /-- Divides the rest of a text of which some characters, last one first, have been passed. -/
  go (passed : List Char) : List Char → List Char × List Char
    | [] => (passed.reverse, [])
    | c :: r =>
      if stop.isPrefixOf (c :: r) then (passed.reverse, c :: r) else go (c :: passed) r

/-- What stands from the first occurrence on is no longer than the text. -/
theorem length_divideBefore_le (stop s : List Char) :
    (divideBefore stop s).2.length ≤ s.length := by
  have go : ∀ passed, (divideBefore.go stop passed s).2.length ≤ s.length := by
    induction s with
    | nil => simp [divideBefore.go]
    | cons c r ih =>
      intro passed
      rw [divideBefore.go]
      split
      · simp
      · exact Nat.le_succ_of_le (ih _)
  exact go []

/-- What stands from the first occurrence of a text on. -/
def fromFirst (stop s : List Char) : Rest s :=
  ⟨(divideBefore stop s).2, length_divideBefore_le stop s⟩

/-! ### Reading on -/

/-- A way to read something from the front of a text, which gives what is left with it. -/
abbrev Reader (ε α : Type) : Type := (s : List Char) → Except ε (α × Rest s)

variable {σ α ε : Type}

/-- Reads nothing. -/
def readNothing : Reader ε Unit := fun s =>
  .ok ((), .all s)

/-- Reads on from what is left of a text. -/
def Rest.read {s : List Char} (t : Rest s) (reader : Reader ε α) : Except ε (α × Rest s) := do
  let (a, rest) ← reader t.text
  return (a, t.andThen rest)

theorem Rest.read_of_ok {s : List Char} {t : Rest s} {reader : Reader ε α} {a : α}
    {rest : Rest t.text} (h : reader t.text = .ok (a, rest)) :
    t.read reader = .ok (a, t.andThen rest) := by
  simp [Rest.read, h, bind, Except.bind, pure, Except.pure]

theorem Rest.read_of_error {s : List Char} {t : Rest s} {reader : Reader ε α} {e : ε}
    (h : reader t.text = .error e) : t.read reader = .error e := by
  simp [Rest.read, h, bind, Except.bind]

/-! ### The loop -/

/-- What a step of a loop leads to. -/
inductive Step (σ α : Type) (s : List Char) where
  /-- Another step follows. -/
  | more (state : σ) (left : Left s)
  /-- The loop ends. -/
  | done (result : α) (rest : Rest s)

/-- The same step, seen from a text of which it read what is left. -/
def Step.behind {s : List Char} (t : Rest s) : Step σ α t.text → Step σ α s
  | more state left => .more state ⟨left.text, Nat.lt_of_lt_of_le left.lt t.le⟩
  | done result rest => .done result (t.andThen rest)

/-- Repeats a step on what the step before has left of a text, until one ends the loop or fails. -/
def loop (step : σ → (s : List Char) → Except ε (Step σ α s)) (state : σ) {s : List Char}
    (t : Rest s) : Except ε (α × Rest s) :=
  match step state t.text with
  | .error e => .error e
  | .ok (.done result rest) => .ok (result, t.andThen rest)
  | .ok (.more next left) => loop step next (t.andThen left.rest)
termination_by t.text.length
decreasing_by exact left.lt

variable {step : σ → (s : List Char) → Except ε (Step σ α s)} {state next : σ} {s : List Char}
  {t : Rest s}

/-- A loop whose next step fails. -/
theorem loop_of_error {e : ε} (h : step state t.text = .error e) :
    loop step state t = .error e := by
  rw [loop, h]

/-- A loop whose next step ends it. -/
theorem loop_of_done {result : α} {rest : Rest t.text}
    (h : step state t.text = .ok (.done result rest)) :
    loop step state t = .ok (result, t.andThen rest) := by
  rw [loop, h]

/-- A loop whose next step is followed by more. -/
theorem loop_of_more {left : Left t.text} (h : step state t.text = .ok (.more next left)) :
    loop step state t = loop step next (t.andThen left.rest) := by
  rw [loop, h]

end Crosswalk.Text
