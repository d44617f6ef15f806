import Crosswalk.Proofs.Path.Spelling
import Crosswalk.Proofs.Stylesheet.Exchanged
import Crosswalk.Stylesheet.Text
import Mathlib.Data.List.Forall2

/-!
# Rules that say the same

A stylesheet is made from the named steps of the output paths and from the values of the sources.
Positions are in neither, and dots beyond those that part the pieces make no steps; identifiers are
only told in notices.  So rules may be restated: with other identifiers, and with paths from which
the positions and the idle dots have been taken.

* `text_exchange` : the text depends on the named steps and the values of the rules alone.
* `value_reduced` : a source has the value of its reduced form.
* `text_of_restated` : the stylesheet of rules that have been restated.
-/

namespace Crosswalk

/-- A source without positions in its path. -/
def Source.reduced : Source → Source
  | .direct path => .direct (Path.reduced path)
  | .constant value => .constant value

/-- A rule without an identifier and without positions in its paths. -/
def Rule.reduced (r : Rule) : Rule :=
  ⟨"", Path.reduced r.outputPath, r.source.reduced⟩

/-- Whether a rule says the same as another one: each of its paths is the one there, or that one
joined again from its pieces without the positions.  Identifiers do not matter. -/
structure Rule.Restates (r u : Rule) : Prop where
  outputPath : u.outputPath = r.outputPath ∨ u.outputPath = Path.reduced r.outputPath
  source : u.source = r.source ∨ u.source = r.source.reduced

/-- A source says the same when it is reduced again. -/
@[simp] theorem Source.reduced_reduced (source : Source) :
    source.reduced.reduced = source.reduced := by
  cases source <;> simp [reduced]

/-- Rules that say the same are reduced to the same. -/
theorem Rule.Restates.reduced_eq {r u : Rule} (h : r.Restates u) : u.reduced = r.reduced := by
  rw [Rule.reduced, Rule.reduced]
  rcases h.outputPath with hpath | hpath <;> rcases h.source with hsource | hsource <;>
    simp [hpath, hsource]

namespace Stylesheet

open Markup

/-! ### The same values -/

/-- Whether exchanged rules have the values of the rules that they stand for. -/
def KeepsValues (qualifier : String) (f : Rule → Rule) : Prop :=
  ∀ r, value qualifier (f r).source = value qualifier r.source

variable {f : Rule → Rule} {qualifier : String}

theorem attributeLines_exchange (h : KeepsValues qualifier f) (pad : String) (level : Level) :
    attributeLines qualifier pad (exchangeAll f level) = attributeLines qualifier pad level := by
  induction level with
  | nil => rfl
  | cons e rest ih =>
    match e with
    | (.attribute name, .leaf rule) =>
      rw [exchangeAll, Entry.exchange, attributeLines, attributeLines, ih, h]
    | (.attribute name, .fanout rules) =>
      rw [exchangeAll, Entry.exchange, attributeLines, attributeLines, ih, List.flatMap_map]
      simp only [h _]
    | (.attribute _, .branch _) => exact ih
    | (.element _ _, _) => exact ih
    | (.index _, _) => exact ih

mutual

theorem elementLines_exchange (h : KeepsValues qualifier f) (pad : String) (step : Segment)
    (entry : Entry) :
    elementLines qualifier pad step (entry.exchange f) = elementLines qualifier pad step entry :=
  match entry with
  | .leaf rule => by rw [Entry.exchange, elementLines, elementLines, h]
  | .fanout rules => by
    rw [Entry.exchange, elementLines, elementLines, List.flatMap_map]
    simp only [h _]
  | .branch children => by
    rw [Entry.exchange, elementLines, elementLines, attributeLines_exchange h,
      childLines_exchange h]

theorem childLines_exchange (h : KeepsValues qualifier f) (pad : String)
    (level : List (Segment × Entry)) :
    childLines qualifier pad (exchangeAll f level) = childLines qualifier pad level :=
  match level with
  | [] => rfl
  | (step, entry) :: rest => by
    rw [exchangeAll, childLines, childLines, elementLines_exchange h, childLines_exchange h]

end

theorem rebuildingTemplate_exchange (h : KeepsValues qualifier f) (level : Level) :
    rebuildingTemplate qualifier (exchangeAll f level) = rebuildingTemplate qualifier level := by
  rw [rebuildingTemplate, levelLines, attributeLines_exchange h, childLines_exchange h,
    rebuildingTemplate, levelLines]

theorem parts_exchange (h : KeepsValues qualifier f) (namespaceUri : String) (a : Appended) :
    (a.exchange f).parts qualifier namespaceUri = a.parts qualifier namespaceUri := by
  rw [Appended.parts, Appended.parts, Appended.exchange, h]

theorem overrideTemplate_exchange (h : KeepsValues qualifier f) (namespaceUri : String)
    (steps : List Segment) (members : List Appended) :
    overrideTemplate qualifier namespaceUri steps (members.map (Appended.exchange f))
      = overrideTemplate qualifier namespaceUri steps members := by
  simp only [overrideTemplate, List.flatMap_map, parts_exchange h]

theorem overrideTemplates_exchange (h : KeepsValues qualifier f) (namespaceUri : String)
    (groups : List (List Segment × List Appended)) :
    overrideTemplates qualifier namespaceUri
        (groups.map (Prod.map id (List.map (Appended.exchange f))))
      = overrideTemplates qualifier namespaceUri groups := by
  have hgroup : ∀ g : List Segment × List Appended,
      overrideTemplate qualifier namespaceUri g.1 (g.2.map (Appended.exchange f))
        = overrideTemplate qualifier namespaceUri g.1 g.2 := fun g =>
    overrideTemplate_exchange h namespaceUri g.1 g.2
  simp only [overrideTemplates, List.map_map, Function.comp_def, Prod.map_fst, Prod.map_snd, id_eq,
    hgroup]

/-- **The text of a stylesheet** depends on its rules by their named steps and their values. -/
theorem text_exchange (s : Stylesheet) (hsteps : ∀ r, (f r).steps = r.steps)
    (hvalues : KeepsValues s.qualifier f) : { s with rules := s.rules.map f }.text = s.text := by
  have htemplates : { s with rules := s.rules.map f }.templates = s.templates := by
    simp only [templates, copyingTemplates, grouped_exchange hsteps, Level.ofRules_exchange hsteps,
      overrideTemplates_exchange hvalues, rebuildingTemplate_exchange hvalues]
  have hdocument : ∀ parts, document { s with rules := s.rules.map f } parts = document s parts :=
    fun _ => rfl
  unfold text
  rw [htemplates, hdocument]

/-- A source has the value of its reduced form. -/
theorem value_reduced (qualifier : String) (source : Source) :
    value qualifier source.reduced = value qualifier source := by
  cases source with
  | constant constant => rfl
  | direct path =>
    have hsegments : Path.segments (Path.reduced path)
        = (Path.segments path).filter (fun step => !step.isIndex) := Path.segments_reduced path
    rw [Source.reduced, value, value, XPath.ofPath, hsegments, XPath.ofSegments_named, XPath.ofPath]

/-- **Restated rules** give the same stylesheet.  Whatever the notes, the namespace and the sort of
the stylesheet are, its text stays the same when rules get any other identifiers, and when output
paths and source paths are joined again from their pieces with the positions left out. -/
theorem text_of_restated (s : Stylesheet) {rules : List Rule}
    (h : List.Forall₂ Rule.Restates s.rules rules) : { s with rules := rules }.text = s.text := by
  have hsteps : ∀ r : Rule, r.reduced.steps = r.steps := fun r =>
    Path.namedSegments_reduced r.outputPath
  have hvalues : KeepsValues s.qualifier Rule.reduced := fun r => value_reduced _ r.source
  have hrules : rules.map Rule.reduced = s.rules.map Rule.reduced := by
    rw [← List.forall₂_eq_eq_eq, List.forall₂_map_left_iff, List.forall₂_map_right_iff]
    exact h.flip.imp fun _ _ hru => hru.reduced_eq
  -- Both lists have the text of the reduced rules, and these are the same.
  have hrestated := text_exchange { s with rules := rules } hsteps hvalues
  have hgiven := text_exchange s hsteps hvalues
  rw [← hrestated, ← hgiven, ← hrules]

/-- Paths with positions, idle dots and odd brackets, among them one of positions alone, in both
sorts of stylesheets. -/
theorem text_of_restated_with_dots :
    let s : Stylesheet := ⟨"n", false, "urn:x", "ns",
      [⟨"1", ".Doc..0.Item[@k='a.0']..7.B]", .direct "In.0.a[x.[1].y].2."⟩,
       ⟨"2", "3.0.", .constant "a..0"⟩, ⟨"2", "Doc.Item[.[0.@_id", .direct "0"⟩,
       ⟨"3", "Doc.1.@_id", .direct "..In.@_b.5"⟩]⟩
    let rules : List Rule :=
      [⟨"x", "Doc.Item[@k='a.0'].B]", .direct "In.a[x.[1].y]"⟩, ⟨"", "", .constant "a..0"⟩,
       ⟨"x", "Doc.Item[.[0.@_id", .direct ""⟩, ⟨"3", "Doc.@_id", .direct "..In.@_b.5"⟩]
    let copying : Stylesheet := { s with copiesInput := true }
    { s with rules := rules }.text = s.text ∧
      { copying with rules := rules }.text = copying.text := by
  intro s rules copying
  have hrules : List.Forall₂ Rule.Restates s.rules rules :=
    .cons ⟨.inr (by decide +kernel), .inr (by decide +kernel)⟩
      (.cons ⟨.inr (by decide +kernel), .inl rfl⟩
        (.cons ⟨.inl rfl, .inr (by decide +kernel)⟩
          (.cons ⟨.inr (by decide +kernel), .inl rfl⟩ .nil)))
  exact ⟨text_of_restated s hrules, text_of_restated copying hrules⟩

end Stylesheet

end Crosswalk
