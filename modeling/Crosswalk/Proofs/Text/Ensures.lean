import Crosswalk.Text.Rest

/-!
# What a reader makes sure of

What holds of everything that a reader gives follows from what holds of everything that its parts
give.  For a loop it takes an invariant: each step passes it on, and the one that ends the loop makes
the result of it.

* `bind_eq_ok_iff` : when one step after another gives a result.
* `Ensures.bind` : one reader after another.
* `ensures_loop` : a loop, by its invariant.
-/

namespace Crosswalk.Text

variable {σ α β ε η : Type}

/-- Two steps give a result exactly if the first gives one with which the second gives it. -/
theorem bind_eq_ok_iff {x : Except ε α} {f : α → Except ε β} {b : β} :
    (x >>= f) = .ok b ↔ ∃ a, x = .ok a ∧ f a = .ok b := by
  cases x with
  | error e => simp [bind, Except.bind]
  | ok a => simp [bind, Except.bind]

theorem mapError_eq_ok_iff {x : Except ε α} {f : ε → η} {a : α} :
    x.mapError f = .ok a ↔ x = .ok a := by
  cases x with
  | error e => exact ⟨nofun, nofun⟩
  | ok b =>
    change Except.ok b = Except.ok a ↔ Except.ok b = Except.ok a
    rw [Except.ok.injEq, Except.ok.injEq]

/-- Whether a property holds of what is given, if anything is. -/
def Ensures (x : Except ε α) (P : α → Prop) : Prop := ∀ a, x = .ok a → P a

theorem ensures_ok {a : α} {P : α → Prop} (h : P a) : Ensures (.ok a : Except ε α) P := by
  intro b hb
  cases hb
  exact h

theorem ensures_error {e : ε} {P : α → Prop} : Ensures (.error e : Except ε α) P := by
  intro b hb
  cases hb

theorem ensures_trivial (x : Except ε α) : Ensures x (fun _ => True) := fun _ _ => trivial

/-- **One after another** : what the second makes sure of may depend on what the first gave. -/
theorem Ensures.bind {x : Except ε α} {f : α → Except ε β} {P : α → Prop} {Q : β → Prop}
    (hx : Ensures x P) (hf : ∀ a, P a → Ensures (f a) Q) : Ensures (x >>= f) Q := by
  intro b hb
  cases x with
  | error e => cases hb
  | ok a => exact hf a (hx a rfl) b hb

/-- What a reader gives does not depend on how its text came to be left. -/
theorem Ensures.read {s : List Char} {t : Rest s} {reader : Reader ε α} {P : α → Prop}
    (h : Ensures (reader t.text) (fun r => P r.1)) :
    Ensures (t.read reader) (fun r => P r.1) := by
  unfold Rest.read
  refine h.bind ?_
  rintro ⟨a, rest⟩ ha
  exact ensures_ok ha

/-- Whether what a step leads to keeps an invariant, or makes a result of it. -/
def Step.Keeps (invariant : σ → Prop) (P : α → Prop) {s : List Char} : Step σ α s → Prop
  | more state _ => invariant state
  | done result _ => P result

/-- **A loop** makes sure of what its last step does, by an invariant that the other steps keep. -/
theorem ensures_loop {step : σ → (s : List Char) → Except ε (Step σ α s)}
    {invariant : σ → Prop} {P : α → Prop}
    (hstep : ∀ state s, invariant state → Ensures (step state s) (Step.Keeps invariant P))
    (state : σ) {s : List Char} (t : Rest s) (h : invariant state) :
    Ensures (loop step state t) (fun r => P r.1) := by
  rintro ⟨a, rest⟩ hloop
  rw [loop] at hloop
  split at hloop
  · cases hloop
  · rename_i result _ hdone
    have hresult : P result := hstep state t.text h _ hdone
    cases hloop
    exact hresult
  · rename_i next left hmore
    have hnext : invariant next := hstep state t.text h _ hmore
    have hlt : left.text.length < t.text.length := left.lt
    exact ensures_loop hstep next (t.andThen left.rest) hnext _ hloop
termination_by t.text.length
decreasing_by exact hlt

end Crosswalk.Text
