import Crosswalk.Proofs.Text.Trimming
import Crosswalk.Text.Rest

/-!
# What a reader reads

Laws of readers are stated of the text alone: a reader reads something from the front of a text and
leaves the rest of it.  How the rest came to be left does not matter, so such statements follow
each other like the parts of the text do, and those about a loop follow its steps.

* `Reads.andThen`, `ReadsOn.reads` : reading on from what is left.
* `LoopReads.done` and `LoopReads.more` : a loop, from its next step.
* `skipBlank_append` : blanks in front of a text are skipped.
-/

namespace Crosswalk.Text

variable {σ α β ε : Type}

/-- A reader reads `a` from the front of a text and leaves `rest`. -/
def Reads (reader : Reader ε α) (s : List Char) (a : α) (rest : List Char) : Prop :=
  ∃ t : Rest s, reader s = .ok (a, t) ∧ t.text = rest

/-- On a text a reader does what another one does on what is left of it. -/
def ReadsOn (reader : Reader ε α) (s : List Char) (inner : Reader ε α) (left : List Char) : Prop :=
  ∃ t : Rest s, reader s = t.read inner ∧ t.text = left

/-- A loop gives `a` from a text, however that came to be left, and leaves `rest`. -/
def LoopReads (step : σ → (s : List Char) → Except ε (Step σ α s)) (state : σ)
    (text : List Char) (a : α) (rest : List Char) : Prop :=
  ∀ (s : List Char) (t : Rest s), t.text = text →
    ∃ u : Rest s, loop step state t = .ok (a, u) ∧ u.text = rest

/-- A step of a loop goes on with another state and another text. -/
def Continues (step : σ → (s : List Char) → Except ε (Step σ α s)) (state : σ)
    (text : List Char) (next : σ) (left : List Char) : Prop :=
  ∃ t : Left text, step state text = .ok (.more next t) ∧ t.text = left

/-- A step of a loop ends it and leaves `rest`. -/
def Ends (step : σ → (s : List Char) → Except ε (Step σ α s)) (state : σ)
    (text : List Char) (a : α) (rest : List Char) : Prop :=
  ∃ t : Rest text, step state text = .ok (.done a t) ∧ t.text = rest

/-! ### One reader after another -/

theorem Reads.andThen {reader : Reader ε α} {text rest : List Char} {a : α}
    (h : Reads reader text a rest) {s : List Char} (t : Rest s) (ht : t.text = text) :
    ∃ u : Rest s, t.read reader = .ok (a, u) ∧ u.text = rest := by
  subst ht
  obtain ⟨u, hread, htext⟩ := h
  exact ⟨t.andThen u, Rest.read_of_ok hread, htext⟩

theorem ReadsOn.reads {reader inner : Reader ε α} {s left rest : List Char} {a : α}
    (h : ReadsOn reader s inner left) (hinner : Reads inner left a rest) : Reads reader s a rest := by
  obtain ⟨t, hreader, ht⟩ := h
  obtain ⟨u, hread, hrest⟩ := hinner.andThen t ht
  exact ⟨u, hreader.trans hread, hrest⟩

/-- What is made of what a reader gives. -/
theorem Reads.map {reader : Reader ε α} {s rest : List Char} {a : α}
    (h : Reads reader s a rest) (f : α → β) :
    Reads (fun s => do let (a, t) ← reader s; return (f a, t)) s (f a) rest := by
  obtain ⟨t, hread, htext⟩ := h
  exact ⟨t, by simp [hread, bind, Except.bind, pure, Except.pure], htext⟩

/-! ### Loops -/

variable {step : σ → (s : List Char) → Except ε (Step σ α s)} {state next : σ}
  {text left rest : List Char} {a : α}

/-- A loop whose next step ends it. -/
theorem LoopReads.done (h : Ends step state text a rest) : LoopReads step state text a rest := by
  intro s t ht
  subst ht
  obtain ⟨u, hstep, htext⟩ := h
  exact ⟨t.andThen u, loop_of_done hstep, htext⟩

/-- A loop whose next step is followed by more. -/
theorem LoopReads.more (h : Continues step state text next left)
    (hnext : LoopReads step next left a rest) : LoopReads step state text a rest := by
  intro s t ht
  subst ht
  obtain ⟨u, hstep, htext⟩ := h
  obtain ⟨v, hloop, hrest⟩ := hnext s (t.andThen u.rest) htext
  exact ⟨v, (loop_of_more hstep).trans hloop, hrest⟩

/-! ### Blanks -/

/-- Blanks in front of a text are skipped. -/
theorem skipBlank_append {blanks : List Char} (hblanks : ∀ c ∈ blanks, c.isWhitespace = true)
    {c : Char} (hc : c.isWhitespace = false) (r : List Char) :
    ∃ h, skipBlank (blanks ++ c :: r) = ⟨c :: r, h⟩ := by
  refine ⟨?_, ?_⟩
  · simp
  · exact Rest.ext (dropWhile_run hblanks (stops_cons hc r))

theorem skipBlank_cons {c : Char} (hc : c.isWhitespace = false) (r : List Char) :
    ∃ h, skipBlank (c :: r) = ⟨c :: r, h⟩ := by
  have hnone : ∀ d ∈ ([] : List Char), d.isWhitespace = true := by simp
  exact skipBlank_append hnone hc r

end Crosswalk.Text
