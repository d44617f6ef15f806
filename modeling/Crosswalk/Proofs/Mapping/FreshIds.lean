import Crosswalk.Proofs.Mapping.Store
import Crosswalk.Proofs.Path.Positions
import Mathlib.Data.List.Nodup

/-!
# Identifiers that are made up

An identifier is made up by a search: as long as a rule has the candidate, a counter goes up and the
text with the new number is the next candidate.  Nothing but a free candidate ends the search, and
its counter is a word of 32 bits.  An end is reached because the candidates of a text are all
different, so that the rules of a mapping cannot have more of them than there are rules.  As long as
there are fewer rules than words, the counter does not run out before.

* `candidate_injective` : the candidates of a text are different.
* `exists_candidate_free` : one of the first candidates is free, one more than there are rules.
* `freshId_first_free` and `freshId_not_mem_ids` : the first of them that is free is made up.
* `Ends.unique` and `ends_of_first_free` : a search ends there, and in one way only.
* `freshId_ends_search` : the search for an identifier ends, and what it finds is never refused as
  repeated.
-/

namespace Crosswalk.Mapping

/-! ### Candidates -/

/-- **The candidates of a text** are all different, whatever numbers the text itself ends in. -/
theorem candidate_injective (base : String) : Function.Injective (candidate base) := by
  -- A number makes the text longer, so only the number itself can tell two longer candidates apart.
  have hlonger : ∀ n, base ≠ candidate base (n + 1) := by
    intro n h
    have hlength := congrArg String.length h
    have hhyphen : "-".length = 1 := rfl
    rw [candidate, String.length_append, String.length_append] at hlength
    omega
  intro i j h
  cases i with
  | zero =>
    cases j with
    | zero => rfl
    | succ j => exact absurd h (hlonger j)
  | succ i =>
    cases j with
    | zero => exact absurd h.symm (hlonger i)
    | succ j =>
      rw [candidate, candidate, String.append_right_inj] at h
      exact Segment.eq_of_toString h

/-- Among one candidate more than a mapping has rules, one is free. -/
theorem exists_candidate_free (m : Mapping) (base : String) :
    ∃ n ≤ m.size, candidate base n ∉ m.ids := by
  by_contra hnone
  have htaken : ∀ n ≤ m.size, candidate base n ∈ m.ids := by
    intro n hn
    by_contra hfree
    exact hnone ⟨n, hn, hfree⟩
  have hnodup : ((List.range (m.size + 1)).map (candidate base)).Nodup :=
    List.nodup_range.map (candidate_injective base)
  have hsubset : (List.range (m.size + 1)).map (candidate base) ⊆ m.ids := by
    intro id hid
    obtain ⟨n, hn, rfl⟩ := List.mem_map.1 hid
    exact htaken n (Nat.le_of_lt_succ (List.mem_range.1 hn))
  have hlength := hnodup.length_le_of_subset hsubset
  rw [List.length_map, List.length_range, ids, List.length_map, size] at hlength
  omega

/-- **The first free candidate** is taken, of those from the `n`-th on. -/
theorem freshFrom_first_free {m : Mapping} {base : String} {n tries : Nat}
    (hfree : ∃ k ≤ tries, candidate base (n + k) ∉ m.ids) :
    ∃ k ≤ tries,
      freshFrom (fun id => (m.get? id).isSome) base n tries = candidate base (n + k) ∧
        candidate base (n + k) ∉ m.ids ∧ ∀ i < k, candidate base (n + i) ∈ m.ids := by
  -- A candidate that is taken uses up one of the tries, and the free one is nearer by one.
  induction tries generalizing n with
  | zero =>
    obtain ⟨k, hk, hfree⟩ := hfree
    obtain rfl : k = 0 := Nat.le_zero.1 hk
    exact ⟨0, Nat.le_refl 0, rfl, hfree, fun i hi => absurd hi (Nat.not_lt_zero i)⟩
  | succ tries ih =>
    rw [freshFrom]
    by_cases hnone : m.get? (candidate base n) = none
    · rw [hnone]
      exact ⟨0, Nat.zero_le _, rfl, (get?_eq_none_iff m _).1 hnone,
        fun i hi => absurd hi (Nat.not_lt_zero i)⟩
    · have htaken : candidate base n ∈ m.ids :=
        Decidable.not_not.1 (mt (get?_eq_none_iff m _).2 hnone)
      have hshift : ∀ k, n + (k + 1) = n + 1 + k := fun k => by omega
      have hlater : ∃ k ≤ tries, candidate base (n + 1 + k) ∉ m.ids := by
        obtain ⟨k, hk, hfree⟩ := hfree
        cases k with
        | zero => exact absurd htaken hfree
        | succ k => exact ⟨k, by omega, hshift k ▸ hfree⟩
      obtain ⟨k, hk, hfound, hnew, hbefore⟩ := ih hlater
      rw [if_pos (Option.isSome_iff_ne_none.2 hnone), hfound]
      refine ⟨k + 1, by omega, by rw [hshift k], by rwa [hshift k], ?_⟩
      intro i hi
      cases i with
      | zero => exact htaken
      | succ i =>
        rw [hshift i]
        exact hbefore i (by omega)

/-- The identifier that is made up is the first free candidate, and its number is no more than there
are rules. -/
theorem freshId_first_free (m : Mapping) (base : String) :
    ∃ k ≤ m.size, m.freshId base = candidate base k ∧ candidate base k ∉ m.ids ∧
      ∀ i < k, candidate base i ∈ m.ids := by
  obtain ⟨n, hn, hfree⟩ := exists_candidate_free m base
  have hlater : ∃ k ≤ m.size, candidate base (0 + k) ∉ m.ids := ⟨n, hn, by rwa [Nat.zero_add]⟩
  have hfirst := freshFrom_first_free hlater
  simp only [Nat.zero_add] at hfirst
  exact hfirst

/-- No rule has the identifier that is made up. -/
theorem freshId_not_mem_ids (m : Mapping) (base : String) : m.freshId base ∉ m.ids := by
  obtain ⟨k, -, hfound, hnew, -⟩ := freshId_first_free m base
  rw [hfound]
  exact hnew

/-! ### The search -/

/-- A search for a free identifier, before it looks at a candidate. -/
structure Search where
  candidate : String
  counter : UInt32

namespace Search

/-- A search begins with the text itself. -/
def start (base : String) : Search := ⟨base, 0⟩

/-- The search one count later, unless the counter has run out. -/
def next? (s : Search) (base : String) : Option Search :=
  if s.counter.toNat + 1 < UInt32.size then
    let counter := s.counter + 1
    some ⟨base ++ "-" ++ toString counter, counter⟩
  else none

/-- The search before it looks at the `n`-th candidate. -/
def nth (base : String) (n : Nat) : Search := ⟨Mapping.candidate base n, UInt32.ofNat n⟩

theorem start_eq_nth (base : String) : start base = nth base 0 := rfl

/-- **One count** leads from a candidate to the one after it. -/
theorem next?_nth {base : String} {n : Nat} (h : n + 1 < UInt32.size) :
    (nth base n).next? base = some (.nth base (n + 1)) := by
  have hcounter : (UInt32.ofNat n).toNat = n := UInt32.toNat_ofNat_of_lt' (by omega)
  have hsucc : UInt32.ofNat n + 1 = UInt32.ofNat (n + 1) := (UInt32.ofNat_add n 1).symm
  have hvalue : (UInt32.ofNat (n + 1)).toNat = n + 1 := UInt32.toNat_ofNat_of_lt' h
  have htext : toString (UInt32.ofNat (n + 1)) = toString (n + 1) := congrArg toString hvalue
  simp only [next?, nth, hcounter, if_pos h, hsucc, htext, Mapping.candidate]

end Search

/-- What a search leads to: `m.Ends base s looks id` says that the search `s` looks at `looks` more
candidates and ends with `id`. -/
inductive Ends (m : Mapping) (base : String) : Search → (looks : Nat) → (id : String) → Prop
  /-- No rule has the candidate. -/
  | free {s : Search} (h : m.get? s.candidate = none) : Ends m base s 1 s.candidate
  /-- A rule has the candidate, and the search goes on. -/
  | taken {s t : Search} {looks : Nat} {id : String} (h : (m.get? s.candidate).isSome)
      (hnext : s.next? base = some t) (hlater : Ends m base t looks id) :
      Ends m base s (looks + 1) id

variable {m : Mapping} {base : String} {s : Search} {looks : Nat} {id : String}

/-- A search ends in one way only. -/
theorem Ends.unique (h : m.Ends base s looks id) {others : Nat} {other : String}
    (hother : m.Ends base s others other) : others = looks ∧ other = id := by
  induction h generalizing others other with
  | free hfree =>
    cases hother with
    | free => exact ⟨rfl, rfl⟩
    | taken htaken => simp [hfree] at htaken
  | taken htaken hnext _ ih =>
    cases hother with
    | free hfree => simp [hfree] at htaken
    | taken _ hsame hlater =>
      obtain rfl := Option.some.inj (hnext.symm.trans hsame)
      obtain ⟨rfl, rfl⟩ := ih hlater
      exact ⟨rfl, rfl⟩

/-- **The search from the `n`-th candidate on** ends with the first that is free, if its number is one
of 32 bits. -/
theorem ends_of_first_free {n k : Nat} (hfree : candidate base (n + k) ∉ m.ids)
    (hbefore : ∀ i < k, candidate base (n + i) ∈ m.ids) (hbound : n + k < UInt32.size) :
    m.Ends base (.nth base n) (k + 1) (candidate base (n + k)) := by
  induction k generalizing n with
  | zero => exact .free ((get?_eq_none_iff m _).2 hfree)
  | succ k ih =>
    have hshift : ∀ i, n + (i + 1) = n + 1 + i := fun i => by omega
    have htaken : (m.get? (candidate base n)).isSome = true := by
      rw [Option.isSome_iff_ne_none, ne_eq, get?_eq_none_iff, not_not]
      exact hbefore 0 (Nat.succ_pos k)
    rw [hshift k] at hfree hbound ⊢
    refine .taken htaken (Search.next?_nth (by omega)) (ih hfree (fun i hi => ?_) hbound)
    rw [← hshift i]
    exact hbefore (i + 1) (by omega)

/-! ### Rules with such an identifier -/

/-- The check of a rule does not look at other rules. -/
theorem check_ne_repeatedId (r : Rule) (id : String) : r.check ≠ .error (.repeatedId id) := by
  unfold Rule.check
  split
  · simp
  · split
    · split <;> simp
    · split <;> simp

/-- A rule with a new identifier is refused only for what its check finds, so not as repeated. -/
theorem check_of_add_error {r : Rule} (h : r.id ∉ m.ids) {fault : Fault}
    (hadd : m.add r = .error fault) :
    r.check = .error fault ∧ ∀ id, fault ≠ .repeatedId id := by
  have hcheck : r.check = .error fault := by
    cases hcheck : r.check with
    | error found =>
      rw [add, hcheck] at hadd
      exact congrArg Except.error (Except.error.inj hadd)
    | ok _ =>
      rw [add_eq_ok_iff.2 ⟨hcheck, h, rfl⟩] at hadd
      cases hadd
  refine ⟨hcheck, ?_⟩
  rintro id rfl
  exact check_ne_repeatedId r id hcheck

/-- **The search for an identifier ends.**  In a mapping with fewer rules than there are words of 32
bits, whatever identifiers they have, it looks at no more candidates of a text than there are rules
and one more.  It ends in one way only, with an identifier that no rule has, so an addition with
such an identifier fails only for what the check of the rule finds, and never for a repeated
identifier. -/
theorem freshId_ends_search (m : Mapping) (base : String) (h : m.size < UInt32.size) :
    (∃ looks ≤ m.size + 1, ∀ others id,
        m.Ends base (.start base) others id ↔ others = looks ∧ id = m.freshId base) ∧
      m.freshId base ∉ m.ids ∧
      (∀ outputPath sourcePath fault,
        m.addDirect base outputPath sourcePath = .error fault →
          Rule.check ⟨m.freshId base, outputPath, .direct sourcePath⟩ = .error fault ∧
            ∀ id, fault ≠ .repeatedId id) ∧
      ∀ outputPath value fault,
        m.addConstant base outputPath value = .error fault →
          Rule.check ⟨m.freshId base, outputPath, .constant value⟩ = .error fault ∧
            ∀ id, fault ≠ .repeatedId id := by
  obtain ⟨k, hk, hfound, hfirst, hbefore⟩ := freshId_first_free m base
  have hends : m.Ends base (.start base) (k + 1) (m.freshId base) := by
    have hsearch : m.Ends base (.nth base 0) (k + 1) (candidate base (0 + k)) := by
      refine ends_of_first_free ?_ ?_ (by omega)
      · rwa [Nat.zero_add]
      · intro i hi
        rw [Nat.zero_add]
        exact hbefore i hi
    rw [Nat.zero_add] at hsearch
    rw [Search.start_eq_nth, hfound]
    exact hsearch
  have hnew : m.freshId base ∉ m.ids := freshId_not_mem_ids m base
  refine ⟨⟨k + 1, Nat.succ_le_succ hk, fun others id => ⟨hends.unique, ?_⟩⟩, hnew, ?_, ?_⟩
  · rintro ⟨rfl, rfl⟩
    exact hends
  · intro outputPath sourcePath fault hadd
    exact check_of_add_error hnew hadd
  · intro outputPath value fault hadd
    exact check_of_add_error hnew hadd

/-- A mapping in which the text and two of its numbers are taken, and the number between them is
free. -/
theorem freshId_between_taken :
    let m : Mapping :=
      ⟨[⟨"5-3", "a", .constant "x"⟩, ⟨"5", "b", .direct "i"⟩, ⟨"5-1", "c", .constant "y"⟩]⟩
    m.size < UInt32.size ∧
      (∀ others id, m.Ends "5" (.start "5") others id ↔ others = 3 ∧ id = "5-2") ∧
      m.freshId "5" ∉ m.ids ∧
      m.addDirect "5" "d" "i" = .ok ⟨m.rules ++ [⟨"5-2", "d", .direct "i"⟩]⟩ ∧
      m.addConstant "5" "d" "" = .error (.emptyConstant "5-2") ∧
      ∀ id, Fault.emptyConstant "5-2" ≠ .repeatedId id := by
  intro m
  have hsize : m.size < UInt32.size := by decide
  obtain ⟨⟨looks, -, hends⟩, hnew, -, hconstant⟩ := freshId_ends_search m "5" hsize
  have hfound : m.Ends "5" (.start "5") 3 "5-2" := .taken rfl rfl (.taken rfl rfl (.free rfl))
  obtain ⟨hlooks, hid⟩ := (hends 3 "5-2").1 hfound
  have hadded : m.addDirect "5" "d" "i" = .ok ⟨m.rules ++ [⟨"5-2", "d", .direct "i"⟩]⟩ := by
    rw [addDirect, ← hid]
    rfl
  have hrefused : m.addConstant "5" "d" "" = .error (.emptyConstant "5-2") := by
    rw [addConstant, ← hid]
    rfl
  rw [← hlooks, ← hid] at hends
  exact ⟨hsize, hends, hnew, hadded, hrefused, (hconstant "d" "" _ hrefused).2⟩

end Crosswalk.Mapping
