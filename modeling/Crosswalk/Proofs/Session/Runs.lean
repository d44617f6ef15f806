import Crosswalk.Session.Click

/-!
# Runs of a session

A session goes from state to state by operations.  An operation that fails leaves the state as it
was, so whatever the other ones preserve holds in every state that a run reaches.

* `Reachable.invariant` : what holds at the start and is kept by every operation that succeeds holds
  in all states that can be reached.
-/

namespace Crosswalk.Session

/-- What can be done to a session. -/
inductive Operation where
  | load (side : Side) (text : String)
  | setFormat (side : Side) (format : Format)
  | setNotes (notes : String)
  | setCopiesInput (copies : Bool)
  | select (selection : Selection)
  | setMapping (mapping : Mapping)
  | deleteRule (id : String)
  | clickInput (answers : Answers) (path : String)
  /-- A click whose rule has an identifier made from the text `base`. -/
  | clickOutput (answers : Answers) (base path : String)
  | generateScript
  | generateStylesheet

namespace State

/-- The outcome of an operation. -/
def perform (s : State) : Operation → Except Fault State
  | .load side text => s.load side text
  | .setFormat side format => .ok (s.setFormat side format)
  | .setNotes notes => .ok (s.setNotes notes)
  | .setCopiesInput copies => .ok (s.setCopiesInput copies)
  | .select selection => .ok (s.select selection)
  | .setMapping mapping => .ok (s.setMapping mapping)
  | .deleteRule id => .ok (s.deleteRule id)
  | .clickInput answers path => (s.clickInput answers path).result
  | .clickOutput answers base path => (s.clickOutput answers base path).result
  | .generateScript => s.generateScript
  | .generateStylesheet => s.generateStylesheet

/-- The state after an operation, which is the same one if the operation fails. -/
def after (s : State) (operation : Operation) : State :=
  match s.perform operation with
  | .ok t => t
  | .error _ => s

end State

/-- The states that operations lead to from the beginning, if only those that are allowed in a
state are used there. -/
inductive Reachable (allowed : State → Operation → Prop) (config : Config) : State → Prop
  | start : Reachable allowed config (State.start config)
  | step {s : State} {operation : Operation} (hs : Reachable allowed config s)
      (h : allowed s operation) : Reachable allowed config (s.after operation)

/-- **Invariants of a session.**  What holds at the start and is kept by every operation that
succeeds holds in all states that can be reached. -/
theorem Reachable.invariant {allowed : State → Operation → Prop} {config : Config}
    {holds : State → Prop} (hstart : holds (State.start config))
    (hstep : ∀ s operation t, holds s → allowed s operation → s.perform operation = .ok t →
      holds t) {s : State} (h : Reachable allowed config s) : holds s := by
  induction h with
  | start => exact hstart
  | @step s operation _ hallowed ih =>
    unfold State.after
    cases hperform : s.perform operation with
    | error fault => exact ih
    | ok t => exact hstep s operation t ih hallowed hperform

end Crosswalk.Session
