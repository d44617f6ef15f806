import Crosswalk.Proofs.Json.Containers
import Crosswalk.Proofs.Mapping.Store

/-!
# Saving and loading a mapping

The text of a rule is read back as that rule, whatever characters its identifier, its paths and its
constant have.  The rules of a mapping are read back in their order, and they are accepted because
the rules of every mapping that can be made pass their checks and have different identifiers.

* `Rule.written` : the text of a rule is read back.
* `read_text_of_made` : the text of a mapping that can be made is read back as that mapping.
-/

namespace Crosswalk

open Json

namespace Rule

/-- Fields of any other name whose entries are strings are kept until the rule is complete. -/
theorem takes_others (depth level : Nat) (layout : Layout) (fields : List (String × Value))
    (h : ∀ e ∈ fields, ∃ s, e.2 = .string s ∧ e.1 ≠ "id" ∧ e.1 ≠ "outputPath") (draft : Draft) :
    Takes (record depth).onField layout level draft fields
      { draft with others := fields.reverse ++ draft.others } := by
  induction fields generalizing draft with
  | nil => exact .nil draft
  | cons e fields ih =>
    obtain ⟨name, v⟩ := e
    obtain ⟨⟨s, hs, hid, hpath⟩, hfields⟩ := List.forall_mem_cons.1 h
    obtain rfl : v = .string s := hs
    have hfind : (record depth).fields.find? (fun f => f.name == name) = none := by
      simp [record, Field.of, Ne.symm hid, Ne.symm hpath]
    have hnext := ih hfields { draft with others := (name, .string s) :: draft.others }
    rw [List.reverse_cons, List.append_assoc]
    refine .cons ?_ hnext
    intro rest
    rw [onField_other hfind]
    exact ((written_readValue depth s).entry layout rest).map fun v =>
      { draft with others := (name, v) :: draft.others }

/-- The fields of a rule that is written make up that rule. -/
theorem takes_fields (depth level : Nat) (layout : Layout) (r : Rule) :
    Takes (record depth).onField layout level (record depth).blank
      ([("id", .string r.id), ("outputPath", .string r.outputPath)] ++ r.source.entries)
      ⟨some r.id, some r.outputPath, r.source.entries.reverse⟩ := by
  have hothers : ∀ e ∈ r.source.entries,
      ∃ s, e.2 = .string s ∧ e.1 ≠ "id" ∧ e.1 ≠ "outputPath" := by
    cases r.source with
    | direct path => simp [Source.entries]
    | constant value => simp [Source.entries]
  have hlast := takes_others depth level layout r.source.entries hothers
    ⟨some r.id, some r.outputPath, []⟩
  rw [List.append_nil] at hlast
  have hid : ∀ rest, Text.Reads ((record depth).onField (record depth).blank "id")
      (layout.colon ++ (encodeString r.id ++ rest)) ⟨some r.id, none, []⟩ rest :=
    ((written_readText r.id).map fun id =>
      { (record depth).blank with id := some id }).declared rfl rfl layout
  have hpath : ∀ rest, Text.Reads ((record depth).onField ⟨some r.id, none, []⟩ "outputPath")
      (layout.colon ++ (encodeString r.outputPath ++ rest)) ⟨some r.id, some r.outputPath, []⟩
      rest :=
    ((written_readText r.outputPath).map fun path =>
      (⟨some r.id, some path, []⟩ : Draft)).declared rfl rfl layout
  exact .cons hid (.cons hpath hlast)

theorem finish_entries (r : Rule) :
    Draft.finish ⟨some r.id, some r.outputPath, r.source.entries.reverse⟩ = .ok r := by
  simp [Draft.finish, required, List.reverse_reverse, Source.ofEntries_entries, bind, Except.bind,
    pure, Except.pure]

/-- **The text of a rule is read back as that rule.** -/
theorem written {depth : Nat} (hdepth : depth ≠ 0) (layout : Layout) (level : Nat) (r : Rule) :
    Written (reader depth) (r.toJson.chars layout level) r :=
  .object (takes_fields (depth - 1) (level + 1) layout r) (finish_entries r) hdepth

end Rule

namespace Mapping

/-- The text of a mapping is read back as its rules. -/
theorem readAll_text (m : Mapping) : Rule.readAll m.text = .ok m.rules := by
  apply readWhole_of_written
  have hlist : Written (readList (some (Rule.reader (maxDepth - 1))))
      (m.toJson.chars .indented 0) m.rules :=
    .list fun r _ => Rule.written (by decide) .indented 1 r
  rw [text, Value.indented, String.toList_ofList]
  exact hlist

/-- **Saving and loading.**  The text of a mapping that can be made is read back as that mapping,
with the same rules in the same order. -/
theorem read_text_of_made {m : Mapping} (h : m.Made) : read m.text = .ok m := by
  rw [read, readAll_text]
  exact ofRules_eq_ok_iff.2 ⟨rfl, h.valid⟩

/-- A mapping with quotes, a backslash, controls and other scripts in its identifiers, paths and
constants. -/
theorem read_text_with_escapes :
    let m : Mapping :=
      ⟨[⟨"\"\\\u0001", "a[@b='.']", .constant "\u0000\t\"é\u2028😀"⟩,
        ⟨"é", "b.ü", .direct "a.\\.@_c\u001f"⟩]⟩
    m.Made ∧ read m.text = .ok m := by
  intro m
  have hchecked : ∀ r ∈ m.rules, r.check = .ok () :=
    List.forall_mem_cons.2 ⟨rfl, List.forall_mem_cons.2 ⟨rfl, by simp⟩⟩
  have hmade : Mapping.ofRules m.rules = .ok m := ofRules_eq_ok_iff.2 ⟨rfl, hchecked, by decide⟩
  exact ⟨.ofRules hmade, read_text_of_made (.ofRules hmade)⟩

end Mapping

end Crosswalk
