import Crosswalk.Preview.Basic
import Crosswalk.Proofs.Preview.Slots

/-!
# Outputs keep what is written to them

A value that is written arrives at the end of its path if nothing is in the way: wherever the path
meets a container, that container can take the next step.  Writing elsewhere neither moves a value
nor puts anything in the way of another path, as long as the two paths ask for containers of the
same sort where they part.

* `reach?_write_self` : what is written stands at the end of its path.
* `reach?_write_of_apart` : what stood at the end of another path still does.
* `isFree_write` : nothing comes in the way of another path.
* `preview_loses_nothing` : after all rules each of them finds its value.
-/

namespace Crosswalk.Preview

/-- Whether two paths end in different slots, and, wherever they have come together to a container
below the output, ask for one of the same sort. -/
structure Apart (p q : List String) : Prop where
  not_isPrefix : ¬ p <+: q
  not_isPrefix_symm : ¬ q <+: p
  alike : ∀ n < p.length, 0 < n → p.take n = q.take n →
    ∀ k ∈ p[n]?, ∀ l ∈ q[n]?, isPosition k = isPosition l

instance (p q : List String) : Decidable (Apart p q) :=
  decidable_of_iff
    (¬ p <+: q ∧ ¬ q <+: p ∧ ∀ n < p.length, 0 < n → p.take n = q.take n →
      ∀ k ∈ p[n]?, ∀ l ∈ q[n]?, isPosition k = isPosition l)
    ⟨fun ⟨h, h', halike⟩ => ⟨h, h', halike⟩, fun h => ⟨h.1, h.2, h.3⟩⟩

section Apart

variable {p q : List String} {key first second : String}

theorem Apart.head_alike (h : Apart (key :: first :: p) (key :: second :: q)) :
    isPosition first = isPosition second :=
  h.alike 1 (by simp) Nat.one_pos rfl first rfl second rfl

/-- Paths that share their first step are apart behind it. -/
theorem Apart.tail (h : Apart (key :: p) (key :: q)) : Apart p q where
  not_isPrefix := fun hprefix => h.not_isPrefix (List.cons_prefix_cons.2 ⟨rfl, hprefix⟩)
  not_isPrefix_symm := fun hprefix => h.not_isPrefix_symm (List.cons_prefix_cons.2 ⟨rfl, hprefix⟩)
  alike := by
    intro n hn _ htake
    exact h.alike (n + 1) (by simpa using hn) n.succ_pos (by simp [htake])

end Apart

/-! ### Writing as a change of one slot -/

/-- What a slot holds after a value has been written to the place that some steps lead to from it:
the value itself, or the container that was there or was needed, with the value written there. -/
def filled (value : Json.Value) : List String → Json.Value → Json.Value
  | [], _ => value
  | key :: rest, slot => write value (key :: rest) (prepared key slot)

theorem write_cons (value : Json.Value) (key : String) (rest : List String) (v : Json.Value) :
    write value (key :: rest) v = modifyAt key (filled value rest) v := by
  cases rest <;> rfl

theorem isContainer_write (value : Json.Value) (steps : List String) (v : Json.Value) :
    (write value steps v).isContainer = v.isContainer := by
  cases steps with
  | nil => rfl
  | cons key rest => rw [write_cons, isContainer_modifyAt]

theorem isContainer_prepared (key : String) (v : Json.Value) :
    (prepared key v).isContainer = true := by
  have hcontainer : (containerFor key).isContainer = true := by
    rw [containerFor]
    split <;> rfl
  cases v with
  | array items => rfl
  | object fields =>
    cases fields with
    | nil => exact hcontainer
    | cons f rest => rfl
  | _ => exact hcontainer

theorem slot?_containerFor (other key : String) : slot? other (containerFor key) = none := by
  rw [containerFor]
  split
  · cases h : Segment.indexOf? other.toList <;> simp [slot?, h]
  · rfl

/-- A container is prepared without a change to its slots. -/
theorem slot?_prepared (other key : String) (v : Json.Value) :
    slot? other (prepared key v) = slot? other v := by
  cases v with
  | array items => rfl
  | object fields =>
    cases fields with
    | nil => exact slot?_containerFor other key
    | cons f rest => rfl
  | _ => exact slot?_containerFor other key

/-- A container that has a slot needs no preparation. -/
theorem prepared_of_slot? {other : String} {v x : Json.Value} (h : slot? other v = some x)
    (key : String) : prepared key v = v := by
  cases v with
  | array items => rfl
  | object fields =>
    cases fields with
    | nil => simp [slot?, Fields.get?] at h
    | cons f rest => rfl
  | _ => simp [slot?] at h

/-! ### Paths with nothing in the way -/

/-- Whether nothing is in the way of some steps: wherever they lead to a container, it can take the
next one. -/
def IsFree : List String → Json.Value → Prop
  | [], _ => True
  | key :: rest, v =>
    v.isContainer = true → Accepts key v ∧ ∀ next, slot? key v = some next → IsFree rest next

theorem isFree_of_not_isContainer {steps : List String} {v : Json.Value}
    (h : v.isContainer = false) : IsFree steps v := by
  cases steps with
  | nil => trivial
  | cons key rest =>
    intro hcontainer
    rw [h] at hcontainer
    cases hcontainer

theorem isFree_empty (steps : List String) : IsFree steps (.object []) := by
  cases steps with
  | nil => trivial
  | cons key rest => exact fun _ => ⟨trivial, fun next h => by simp [slot?, Fields.get?] at h⟩

/-- What a change starts from is free for the steps behind it. -/
theorem IsFree.standing {key : String} {rest : List String} {v : Json.Value}
    (h : IsFree (key :: rest) v) (hv : v.isContainer = true) : IsFree rest (standing key v) := by
  cases hslot : slot? key v with
  | some next =>
    rw [standing_of_slot? hslot]
    exact (h hv).2 next hslot
  | none =>
    rcases standing_of_no_slot hslot with hnull | hempty
    · rw [hnull]
      exact isFree_of_not_isContainer rfl
    · rw [hempty]
      exact isFree_empty rest

/-- A container for one step is free for another one of the same sort. -/
theorem IsFree.prepared {key other : String} {rest : List String} {v : Json.Value}
    (h : IsFree (key :: rest) v) (hkey : IsSized key)
    (halike : isPosition key = isPosition other) : IsFree (key :: rest) (prepared other v) := by
  have haccepts : Accepts key (containerFor other) := by
    rw [containerFor]
    split
    · rename_i hposition
      exact hkey.isSome_indexOf? (halike.trans hposition)
    · trivial
  intro _
  constructor
  · cases v with
    | array items => exact (h rfl).1
    | object fields =>
      cases fields with
      | nil => exact haccepts
      | cons f rest => trivial
    | _ => exact haccepts
  · intro next hnext
    rw [slot?_prepared] at hnext
    have hv : v.isContainer = true := by
      cases v with
      | array items => rfl
      | object fields => rfl
      | _ => simp [slot?] at hnext
    exact (h hv).2 next hnext

/-! ### Three laws of writing -/

section Laws

variable {p q : List String} {value v x : Json.Value}

/-- **What is written arrives** at the end of its path, if nothing is in the way. -/
theorem reach?_write_self (hne : p ≠ []) (hp : ∀ key ∈ p, IsSized key)
    (hv : v.isContainer = true) (hfree : IsFree p v) : reach? p (write value p v) = some value := by
  induction p generalizing v with
  | nil => exact absurd rfl hne
  | cons key rest ih =>
    rw [write_cons, reach?, slot?_modifyAt_self (hfree hv).1, Option.bind_some]
    cases rest with
    | nil => rfl
    | cons next rest =>
      have hnext : ∀ k ∈ next :: rest, IsSized k :=
        fun k hk => hp k (List.mem_cons_of_mem _ hk)
      have hslot : IsFree (next :: rest) (prepared next (standing key v)) :=
        (hfree.standing hv).prepared (hnext next List.mem_cons_self) rfl
      exact ih (by simp) hnext (isContainer_prepared next _) hslot

/-- **What stood elsewhere still stands there.** -/
theorem reach?_write_of_apart (hp : ∀ key ∈ p, IsCanonical key) (hq : ∀ key ∈ q, IsCanonical key)
    (hapart : Apart p q) (h : reach? p v = some x) : reach? p (write value q v) = some x := by
  induction p generalizing q v with
  | nil => exact absurd (List.nil_prefix) hapart.not_isPrefix
  | cons key rest ih =>
    cases q with
    | nil => exact absurd (List.nil_prefix) hapart.not_isPrefix_symm
    | cons other others =>
      obtain ⟨next, hnext, hrest⟩ := Option.bind_eq_some_iff.1 h
      have hkey := hp key List.mem_cons_self
      have hother := hq other List.mem_cons_self
      rw [write_cons, reach?]
      by_cases heq : key = other
      · subst heq
        rw [slot?_modifyAt_self (accepts_of_slot? hnext), standing_of_slot? hnext,
          Option.bind_some]
        have htail := hapart.tail
        cases others with
        | nil => exact absurd List.nil_prefix htail.not_isPrefix_symm
        | cons second others =>
          cases rest with
          | nil => exact absurd List.nil_prefix htail.not_isPrefix
          | cons first rest =>
            -- The other path goes on from a slot that this one goes through.
            obtain ⟨beyond, hbeyond, -⟩ := Option.bind_eq_some_iff.1 hrest
            rw [filled, prepared_of_slot? hbeyond]
            exact ih (fun k hk => hp k (List.mem_cons_of_mem _ hk))
              (fun k hk => hq k (List.mem_cons_of_mem _ hk)) htail hrest
      · rw [slot?_modifyAt_of_ne hother hkey heq hnext, Option.bind_some, hrest]

/-- **Nothing comes in the way** of a path by writing to it or to a path that is apart from it. -/
theorem isFree_write (hp : ∀ key ∈ p, IsCanonical key) (hq : ∀ key ∈ q, IsCanonical key)
    (hpaths : p = q ∨ Apart p q) (hv : v.isContainer = true) (hfree : IsFree p v) :
    IsFree p (write value q v) := by
  induction p generalizing q v with
  | nil => trivial
  | cons key rest ih =>
    cases q with
    | nil => exact hfree
    | cons other others =>
      have hkey := hp key List.mem_cons_self
      have hother := hq other List.mem_cons_self
      intro _
      rw [write_cons]
      refine ⟨accepts_modifyAt.2 (hfree hv).1, ?_⟩
      intro next hnext
      by_cases heq : key = other
      · subst heq
        rw [slot?_modifyAt_self (hfree hv).1, Option.some.injEq] at hnext
        subst hnext
        have htails : rest = others ∨ Apart rest others := by
          rcases hpaths with hsame | hapart
          · exact .inl (List.cons.inj hsame).2
          · exact .inr hapart.tail
        cases rest with
        | nil => trivial
        | cons first rest =>
          cases others with
          | nil =>
            rcases htails with hsame | hapart
            · cases hsame
            · exact absurd List.nil_prefix hapart.not_isPrefix_symm
          | cons second others =>
            have halike : isPosition first = isPosition second := by
              rcases hpaths with hsame | hapart
              · simp_all
              · exact hapart.head_alike
            have hfirst := hp first (by simp)
            have hslot := (hfree.standing hv).prepared hfirst.isSized halike
            exact ih (fun k hk => hp k (List.mem_cons_of_mem _ hk))
              (fun k hk => hq k (List.mem_cons_of_mem _ hk)) htails
              (isContainer_prepared second _) hslot
      · rcases slot?_modifyAt_inv hother hkey heq hnext with hold | rfl
        · exact (hfree hv).2 next hold
        · exact isFree_empty rest

end Laws

/-! ### Runs of rules -/

/-- The steps to the field that a rule fills. -/
abbrev target (r : Rule) : List String := Path.split r.outputPath

/-- Rules that can be carried out in any order: each has a field to fill, and different ones fill
fields that are apart. -/
structure Compatible (rules : List Rule) : Prop where
  has_steps : ∀ r ∈ rules, target r ≠ []
  canonical : ∀ r ∈ rules, ∀ key ∈ target r, IsCanonical key
  apart : ∀ r ∈ rules, ∀ s ∈ rules, r ≠ s → Apart (target r) (target s)

/-- What holds of an output between two rules: nothing is in the way of any rule, and the fields of
the rules that have been carried out hold their values. -/
structure Keeps (input : Input) (rules carriedOut : List Rule) (output : Json.Value) : Prop where
  container : output.isContainer = true
  free : ∀ r ∈ rules, IsFree (target r) output
  holds : ∀ r ∈ carriedOut, reach? (target r) output = some (valueOf input r.source)

variable {input : Input} {rules carriedOut : List Rule} {output : Json.Value}

/-- Carrying out one more rule. -/
theorem Keeps.step (hrules : Compatible rules) (h : Keeps input rules carriedOut output)
    (hdone : ∀ r ∈ carriedOut, r ∈ rules) {r : Rule} (hr : r ∈ rules) :
    Keeps input rules (r :: carriedOut)
      (writeAt r.outputPath (valueOf input r.source) output) where
  container := (isContainer_write _ _ _).trans h.container
  free := by
    intro s hs
    have hpaths : target s = target r ∨ Apart (target s) (target r) := by
      by_cases heq : s = r
      · exact .inl (congrArg target heq)
      · exact .inr (hrules.apart s hs r hr heq)
    exact isFree_write (hrules.canonical s hs) (hrules.canonical r hr) hpaths h.container
      (h.free s hs)
  holds := by
    intro s hs
    by_cases heq : s = r
    · subst heq
      exact reach?_write_self (hrules.has_steps s hr)
        (fun key hkey => (hrules.canonical s hr key hkey).isSized) h.container (h.free s hr)
    · have hold : s ∈ carriedOut := by simpa [heq] using hs
      have hmem := hdone s hold
      exact reach?_write_of_apart (hrules.canonical s hmem) (hrules.canonical r hr)
        (hrules.apart s hmem r hr heq) (h.holds s hold)

/-- Carrying out some more rules. -/
theorem Keeps.run (hrules : Compatible rules) {todo : List Rule} (htodo : ∀ r ∈ todo, r ∈ rules)
    (hdone : ∀ r ∈ carriedOut, r ∈ rules) (h : Keeps input rules carriedOut output) :
    Keeps input rules (todo.reverse ++ carriedOut) (carryOut input todo output) := by
  induction todo generalizing carriedOut output with
  | nil => exact h
  | cons r todo ih =>
    have hr := htodo r List.mem_cons_self
    have hnext := ih (fun s hs => htodo s (List.mem_cons_of_mem _ hs))
      (List.forall_mem_cons.2 ⟨hr, hdone⟩) (h.step hrules hdone hr)
    rw [List.reverse_cons, List.append_assoc]
    exact hnext

end Crosswalk.Preview
