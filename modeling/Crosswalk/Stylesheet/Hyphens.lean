/-!
# Hyphens in comments

Two hyphens in a row may not stand in a comment.  Each such pair is parted by a space, from left to
right, and because a hyphen may also pair with the one after the pair, this is done again until no
pair is left.

* `pairs_partOnce_lt` : every round leaves fewer pairs.
* `pairs_part` : none is left in the end.
-/

namespace Crosswalk.Stylesheet.Hyphens

/-- How many hyphens are followed by a hyphen. -/
def pairs : List Char → Nat
  | [] => 0
  | [_] => 0
  | c :: d :: rest => (if c = '-' ∧ d = '-' then 1 else 0) + pairs (d :: rest)

/-- A text in which pairs of hyphens are parted from left to right. -/
def partOnce : List Char → List Char
  | [] => []
  | [c] => [c]
  | c :: d :: rest =>
    if c = '-' ∧ d = '-' then '-' :: ' ' :: '-' :: partOnce rest else c :: partOnce (d :: rest)

/-- A round keeps the first character. -/
theorem head?_partOnce (cs : List Char) : (partOnce cs).head? = cs.head? := by
  unfold partOnce
  split
  · rfl
  · rfl
  · split <;> simp_all

theorem pairs_cons (c : Char) (cs : List Char) :
    pairs (c :: cs) = (if c = '-' ∧ cs.head? = some '-' then 1 else 0) + pairs cs := by
  cases cs <;> simp [pairs]

/-- A round does not add pairs, also counted with a character in front. -/
theorem pairs_partOnce_le (cs : List Char) : pairs (partOnce cs) ≤ pairs cs := by
  fun_induction partOnce cs with
  | case1 => simp
  | case2 c => simp
  | case3 c d rest h ih =>
    have hcd : c = '-' ∧ d = '-' := h
    rw [pairs_cons, pairs_cons, pairs_cons, head?_partOnce, pairs_cons c, pairs_cons d]
    simp only [List.head?_cons, hcd.1, hcd.2]
    simp
    omega
  | case4 c d rest h ih =>
    rw [pairs_cons, head?_partOnce, pairs_cons c]
    omega

/-- As long as there is a pair, a round leaves fewer of them. -/
theorem pairs_partOnce_lt {cs : List Char} (h : pairs cs ≠ 0) :
    pairs (partOnce cs) < pairs cs := by
  fun_induction partOnce cs with
  | case1 => simp [pairs] at h
  | case2 c => simp [pairs] at h
  | case3 c d rest hcd _ =>
    have hle := pairs_partOnce_le rest
    have hcd : c = '-' ∧ d = '-' := hcd
    rw [pairs_cons, pairs_cons, pairs_cons, head?_partOnce, pairs_cons c, pairs_cons d]
    simp only [List.head?_cons, hcd.1, hcd.2]
    simp
    omega
  | case4 c d rest hcd ih =>
    rw [pairs_cons, head?_partOnce]
    rw [pairs_cons c] at h ⊢
    simp only [List.head?_cons, Option.some.injEq, hcd, if_false, Nat.zero_add] at h ⊢
    exact ih h

/-- A text in which all pairs of hyphens are parted. -/
def part (cs : List Char) : List Char :=
  if pairs cs = 0 then cs else part (partOnce cs)
termination_by pairs cs
decreasing_by
  rename_i h
  exact pairs_partOnce_lt h

/-- No pair of hyphens is left. -/
theorem pairs_part (cs : List Char) : pairs (part cs) = 0 := by
  fun_induction part cs with
  | case1 cs h => exact h
  | case2 cs _ ih => exact ih

/-- A text without pairs of hyphens is left as it is. -/
theorem part_of_no_pairs {cs : List Char} (h : pairs cs = 0) : part cs = cs := by
  rw [part, if_pos h]

end Crosswalk.Stylesheet.Hyphens
