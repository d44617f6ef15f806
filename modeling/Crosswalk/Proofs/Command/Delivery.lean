import Crosswalk.Command.Run
import Crosswalk.Proofs.Document.FileNames
import Crosswalk.Proofs.Text.Ensures

/-!
# What a command leaves behind

A command reads all that it needs before it shows or writes anything, and it makes one artifact.
When the artifact goes to a file, that file holds it, and every other file is as it was.  The path
of the file still leads to it: which way a path takes depends on the folders that are there, and a
write makes no folder and takes none away.

* `Folder.Leads` : a path that leads to a file, step by step.
* `Folder.hasFolder_put`, `Folder.target_put` : the folders and the file after a write.
* `Makes`, `makes_of_run`, `run_of_makes` : the artifact of a command, made of the texts of files.
* `fails_or_delivers` : a command fails and leaves nothing behind, or delivers its whole artifact.
-/

namespace Crosswalk

namespace Folder

variable {f : Folder}

/-- The steps of the file that is there, or of the one that can be made. -/
def Target.steps? : Target → Option (List String)
  | .file steps _ => some steps
  | .free steps => some steps
  | _ => none

/-- The folder in which a file holds a text, whether it was there before or not. -/
def put (f : Folder) (steps : List String) (text : String) : Folder :=
  ⟨Fields.put steps (.text text) f.files⟩

theorem hasFolder_iff {steps : List String} :
    f.hasFolder steps = true ↔
      steps = [] ∨ ∃ name ∈ Fields.names f.files, steps <+: name ∧ steps.length < name.length := by
  simp only [hasFolder, Bool.or_eq_true, List.isEmpty_iff, List.any_eq_true, Bool.and_eq_true,
    List.isPrefixOf_iff_prefix, decide_eq_true_eq, Fields.names, List.mem_map]
  constructor
  · rintro (hnil | ⟨entry, hmem, hbegins, hlength⟩)
    · exact .inl hnil
    · exact .inr ⟨entry.1, ⟨entry, hmem, rfl⟩, hbegins, hlength⟩
  · rintro (hnil | ⟨name, ⟨entry, hmem, rfl⟩, hbegins, hlength⟩)
    · exact .inl hnil
    · exact .inr ⟨entry, hmem, hbegins, hlength⟩

/-- What stands above a folder is a folder. -/
theorem hasFolder_above {above steps : List String} (hbegins : above <+: steps)
    (h : f.hasFolder steps = true) : f.hasFolder above = true := by
  rw [hasFolder_iff] at h ⊢
  rcases h with rfl | ⟨name, hname, hbelow, hlength⟩
  · exact .inl (List.prefix_nil.1 hbegins)
  · exact .inr ⟨name, hname, hbegins.trans hbelow, Nat.lt_of_le_of_lt hbegins.length_le hlength⟩

/-- Whether a part of a path is the name of a file or of a folder. -/
def IsName (part : String) : Prop :=
  ¬(part = "" ∨ part = ".") ∧ part ≠ ".."

/-- The rest of a path leads from a folder to a file, which is there or not. -/
inductive Leads (f : Folder) : List String → List String → List String → Prop
  | idle {here : List String} {part : String} {rest steps : List String}
      (hpart : part = "" ∨ part = ".") (hrest : Leads f here rest steps) :
      Leads f here (part :: rest) steps
  | up {here rest steps : List String} (hhere : here ≠ [])
      (hrest : Leads f here.dropLast rest steps) : Leads f here (".." :: rest) steps
  | down {here : List String} {part : String} {rest steps : List String} (hpart : IsName part)
      (hfolder : f.hasFolder (here ++ [part]) = true)
      (hrest : Leads f (here ++ [part]) rest steps) : Leads f here (part :: rest) steps
  | file {here : List String} {part : String} (hpart : IsName part)
      (hfolder : f.hasFolder (here ++ [part]) = false) : Leads f here [part] (here ++ [part])

theorem leads_of_follow {here rest steps : List String}
    (h : (f.follow here rest).steps? = some steps) : f.Leads here rest steps := by
  -- A path leads to a file only by a name at its very end; every other end is a folder or an
  -- obstacle.
  fun_induction follow f here rest with
  | case1 => cases h
  | case2 here part rest hidle ih => exact .idle hidle (ih h)
  | case3 here rest =>
    rw [outside] at h
    split at h <;> cases h
  | case4 here rest hhere _ ih => exact .up (by simpa using hhere) (ih h)
  | case5 here part rest hidle hup next hfolder ih => exact .down ⟨hidle, hup⟩ hfolder (ih h)
  | case6 here part rest hidle hup next hfolder content _ hrest =>
    obtain rfl : rest = [] := List.isEmpty_iff.1 hrest
    obtain rfl : next = steps := Option.some.inj h
    exact .file ⟨hidle, hup⟩ (Bool.eq_false_iff.2 hfolder)
  | case9 here part rest hidle hup next hfolder _ _ hrest =>
    obtain rfl : rest = [] := List.isEmpty_iff.1 hrest
    obtain rfl : next = steps := Option.some.inj h
    exact .file ⟨hidle, hup⟩ (Bool.eq_false_iff.2 hfolder)
  | case7 => cases h
  | case8 => cases h
  | case10 => cases h
  | case11 => cases h
  | case12 => cases h

/-- Some steps are those of a file, or could be: they lead to no folder, but what stands above them
is one. -/
def StandsIn (f : Folder) (steps : List String) : Prop :=
  f.hasFolder steps = false ∧ ∃ above part, steps = above ++ [part] ∧ f.hasFolder above = true

theorem Leads.standsIn {here rest steps : List String} (h : f.Leads here rest steps)
    (hhere : f.hasFolder here = true) : f.StandsIn steps := by
  induction h with
  | idle _ _ ih => exact ih hhere
  | up _ _ ih => exact ih (hasFolder_above (List.dropLast_prefix _) hhere)
  | down _ hfolder _ ih => exact ih hfolder
  | file _ hfolder => exact ⟨hfolder, _, _, rfl, hhere⟩

/-- A write to a file makes no folder and takes none away. -/
theorem hasFolder_put {steps : List String} (h : f.StandsIn steps) (text : String)
    (here : List String) : (f.put steps text).hasFolder here = f.hasFolder here := by
  obtain ⟨hnone, above, part, rfl, habove⟩ := h
  rw [Bool.eq_iff_iff]
  -- A new file is below the folders that it stands in, and these were there before.
  by_cases hmem : above ++ [part] ∈ Fields.names f.files
  · have hnames : Fields.names (f.put (above ++ [part]) text).files = Fields.names f.files :=
      Fields.names_put_of_mem _ hmem
    rw [hasFolder_iff, hasFolder_iff, hnames]
  · have hnames : Fields.names (f.put (above ++ [part]) text).files
        = Fields.names f.files ++ [above ++ [part]] := Fields.names_put_of_not_mem _ hmem
    constructor
    · intro hput
      rcases hasFolder_iff.1 hput with rfl | ⟨name, hname, hbegins, hlength⟩
      · rfl
      · rw [hnames] at hname
        rcases List.mem_append.1 hname with hold | hnew
        · exact hasFolder_iff.2 (.inr ⟨name, hold, hbegins, hlength⟩)
        · obtain rfl := List.mem_singleton.1 hnew
          rcases List.prefix_concat_iff.1 hbegins with rfl | habove'
          · exact absurd hlength (Nat.lt_irrefl _)
          · exact hasFolder_above habove' habove
    · intro hold
      rcases hasFolder_iff.1 hold with hnil | ⟨name, hname, hbelow⟩
      · exact hasFolder_iff.2 (.inl hnil)
      · exact hasFolder_iff.2 (.inr ⟨name, hnames ▸ List.mem_append_left _ hname, hbelow⟩)

/-- A text that is written to a file stands there, for every path that leads to the file. -/
theorem Leads.follow_put {here rest steps : List String} (h : f.Leads here rest steps)
    (hstands : f.StandsIn steps) (text : String) :
    (f.put steps text).follow here rest = .file steps (.text text) := by
  -- On its way a path asks for folders alone, and the write has changed none of them.
  have hsame := hasFolder_put hstands text
  induction h with
  | idle hpart _ ih => rw [follow, if_pos hpart, ih hstands hsame]
  | up hhere _ ih =>
    rw [follow, if_neg (by decide), if_pos rfl, if_neg (by simpa using hhere), ih hstands hsame]
  | down hpart hfolder _ ih =>
    rw [follow, if_neg hpart.1, if_neg hpart.2]
    simp only [hsame, hfolder, if_pos, ih hstands hsame]
  | @file here part hpart hfolder =>
    have hget : Fields.get? (here ++ [part]) (f.put (here ++ [part]) text).files
        = some (.text text) := Fields.get?_put_self ..
    rw [follow, if_neg hpart.1, if_neg hpart.2]
    simp [hsame, hfolder, hget]

/-! ### Writing -/

theorem write_of_steps? {path : String} {steps : List String}
    (h : (f.target path).steps? = some steps) (text : String) :
    f.write path text = .ok (f.put steps text) := by
  rw [write]
  cases htarget : f.target path <;> rw [htarget] at h <;> cases h <;> rfl

theorem write_of_no_steps {path : String} (h : (f.target path).steps? = none) (text : String) :
    ∃ obstacle, f.write path text = .error obstacle := by
  rw [write]
  cases htarget : f.target path <;> rw [htarget] at h <;> cases h <;> exact ⟨_, rfl⟩

theorem outside_no_steps (rest : List String) : (outside rest).steps? = none := by
  rw [outside]
  split <;> rfl

/-- A path leads to the file that was written by it. -/
theorem target_put {path : String} {steps : List String}
    (h : (f.target path).steps? = some steps) (text : String) :
    (f.put steps text).target path = .file steps (.text text) := by
  rw [target] at h ⊢
  split_ifs at h with hzero hlong hroot
  · cases h
  · cases h
  · rw [outside_no_steps] at h
    cases h
  · have hleads := leads_of_follow h
    rw [if_neg hzero, if_neg hlong, if_neg hroot]
    exact hleads.follow_put (hleads.standsIn rfl) text

theorem read_put {path : String} {steps : List String}
    (h : (f.target path).steps? = some steps) (text : String) :
    (f.put steps text).read path = .ok text := by
  rw [read, target_put h]

end Folder

namespace Command

open Text (bind_eq_ok_iff mapError_eq_ok_iff)

/-! ### Artifacts -/

/-- What a command makes of the files of a folder. -/
inductive Makes (folder : Folder) : Command → String → Prop
  | listing {file text : String} {given : Option Format} {format : Format} {v : Json.Value}
      (hformat : given.or (FileName.format? file) = some format)
      (hfile : folder.read file = .ok text) (hv : Document.read format text = .ok v) :
      Makes folder (.schema file given false) (Schema.listing 0 (Schema.infer v))
  | schema {file text : String} {given : Option Format} {format : Format} {v : Json.Value}
      (hformat : given.or (FileName.format? file) = some format)
      (hfile : folder.read file = .ok text) (hv : Document.read format text = .ok v) :
      Makes folder (.schema file given true) ((Schema.toJson (Schema.infer v)).indented ++ "\n")
  | script {mapping text notes : String} {input output : Format} {target : Option String}
      {m : Mapping} (hfile : folder.read mapping = .ok text) (hm : Mapping.read text = .ok m) :
      Makes folder (.script input output mapping notes target)
        (Script.text ⟨input, output, notes, m.rules⟩)
  | stylesheet {mapping text notes : String} {copiesInput : Bool}
      {namespaceUri target : Option String} {m : Mapping}
      (hfile : folder.read mapping = .ok text) (hm : Mapping.read text = .ok m) :
      Makes folder (.stylesheet mapping notes copiesInput namespaceUri target)
        ((stylesheetConfig notes copiesInput namespaceUri).stylesheet m.rules).text
  | preview {file mapping text rules : String} {given : Option Format} {format : Format}
      {m : Mapping} {output : Json.Value}
      (hformat : given.or (FileName.format? file) = some format)
      (hmapping : folder.read mapping = .ok rules) (hm : Mapping.read rules = .ok m)
      (hfile : folder.read file = .ok text)
      (houtput : Preview.preview m.rules format text = .ok output) :
      Makes folder (.preview file given mapping) (output.indented ++ "\n")

/-- The path of the file that a command writes, if it does not show its artifact. -/
def target? : Command → Option String
  | .script _ _ _ _ target => target
  | .stylesheet _ _ _ _ target => target.map (FileName.withExtension Stylesheet.fileExtension)
  | _ => none

variable {folder : Folder}

theorem readFile_eq_ok_iff {path text : String} :
    readFile (readingOf folder) path = .ok text ↔ folder.read path = .ok text := by
  simp only [readFile, readingOf]
  cases folder.read path <;> simp [Except.mapError]

theorem readMapping_eq_ok_iff {path : String} {m : Mapping} :
    readMapping (readingOf folder) path = .ok m ↔
      ∃ text, folder.read path = .ok text ∧ Mapping.read text = .ok m := by
  simp only [readMapping, bind_eq_ok_iff, mapError_eq_ok_iff, readFile_eq_ok_iff]

theorem formatOf_eq_ok_iff {path : String} {given : Option Format} {format : Format} :
    formatOf path given = .ok format ↔ given.or (FileName.format? path) = some format := by
  rw [formatOf]
  cases given.or (FileName.format? path) <;> simp

theorem schemaText_eq_ok_iff {file shown : String} {given : Option Format} {asJson : Bool} :
    schemaText (readingOf folder) file given asJson = .ok shown ↔
      Makes folder (.schema file given asJson) shown := by
  simp only [schemaText, bind_eq_ok_iff, formatOf_eq_ok_iff, readFile_eq_ok_iff,
    mapError_eq_ok_iff]
  constructor
  · rintro ⟨format, hformat, text, hfile, v, hv, hshown⟩
    obtain rfl := Except.ok.inj hshown
    cases asJson with
    | false => exact .listing hformat hfile hv
    | true => exact .schema hformat hfile hv
  · intro hmakes
    cases hmakes with
    | listing hformat hfile hv => exact ⟨_, hformat, _, hfile, _, hv, rfl⟩
    | schema hformat hfile hv => exact ⟨_, hformat, _, hfile, _, hv, rfl⟩

theorem previewText_eq_ok_iff {file mapping shown : String} {given : Option Format} :
    previewText (readingOf folder) file given mapping = .ok shown ↔
      Makes folder (.preview file given mapping) shown := by
  simp only [previewText, bind_eq_ok_iff, formatOf_eq_ok_iff, readMapping_eq_ok_iff,
    readFile_eq_ok_iff, mapError_eq_ok_iff]
  constructor
  · rintro ⟨format, hformat, m, ⟨rules, hmapping, hm⟩, text, hfile, output, houtput, hshown⟩
    obtain rfl := Except.ok.inj hshown
    exact .preview hformat hmapping hm hfile houtput
  · intro hmakes
    cases hmakes with
    | preview hformat hmapping hm hfile houtput =>
      exact ⟨_, hformat, _, ⟨_, hmapping, hm⟩, _, hfile, _, houtput, rfl⟩

/-- The artifact that a command gives is the one that it makes of the files. -/
theorem makes_of_run {c : Command} {product : Product}
    (h : c.run (readingOf folder) = .ok product) :
    ∃ text, Makes folder c text ∧ product.delivery = deliver c.target? text := by
  cases c with
  | schema file given asJson =>
    obtain ⟨shown, hshown, hproduct⟩ := bind_eq_ok_iff.1 h
    obtain rfl := Except.ok.inj hproduct
    exact ⟨shown, schemaText_eq_ok_iff.1 hshown, rfl⟩
  | script input output mapping notes target =>
    obtain ⟨m, hm, hproduct⟩ := bind_eq_ok_iff.1 h
    obtain ⟨text, hfile, hm⟩ := readMapping_eq_ok_iff.1 hm
    obtain rfl := Except.ok.inj hproduct
    exact ⟨_, .script hfile hm, rfl⟩
  | stylesheet mapping notes copiesInput namespaceUri target =>
    obtain ⟨m, hm, hproduct⟩ := bind_eq_ok_iff.1 h
    obtain ⟨text, hfile, hm⟩ := readMapping_eq_ok_iff.1 hm
    obtain rfl := Except.ok.inj hproduct
    exact ⟨_, .stylesheet hfile hm, rfl⟩
  | preview file given mapping =>
    obtain ⟨shown, hshown, hproduct⟩ := bind_eq_ok_iff.1 h
    obtain rfl := Except.ok.inj hproduct
    exact ⟨shown, previewText_eq_ok_iff.1 hshown, rfl⟩

/-- A command gives the artifact that it makes of the files. -/
theorem run_of_makes {c : Command} {text : String} (h : Makes folder c text) :
    ∃ notices, c.run (readingOf folder) = .ok ⟨deliver c.target? text, notices⟩ := by
  cases c with
  | schema file given asJson =>
    exact ⟨[], bind_eq_ok_iff.2 ⟨text, schemaText_eq_ok_iff.2 h, rfl⟩⟩
  | script input output mapping notes target =>
    cases h with
    | script hfile hm =>
      exact ⟨[], bind_eq_ok_iff.2 ⟨_, readMapping_eq_ok_iff.2 ⟨_, hfile, hm⟩, rfl⟩⟩
  | stylesheet mapping notes copiesInput namespaceUri target =>
    cases h with
    | stylesheet hfile hm =>
      exact ⟨_, bind_eq_ok_iff.2 ⟨_, readMapping_eq_ok_iff.2 ⟨_, hfile, hm⟩, rfl⟩⟩
  | preview file given mapping =>
    exact ⟨[], bind_eq_ok_iff.2 ⟨text, previewText_eq_ok_iff.2 h, rfl⟩⟩

/-! ### Outcomes -/

/-- An artifact has been shown or written, and no file has changed but the one it was written to. -/
inductive Delivered (c : Command) (before : Folder) (text : String) (outcome : Outcome) : Prop
  | shown (htarget : c.target? = none) (hshown : outcome.shown = text)
      (hfolder : outcome.folder = before) : Delivered c before text outcome
  | written {path : String} {steps : List String} (htarget : c.target? = some path)
      (hsteps : (before.target path).steps? = some steps) (hshown : outcome.shown = "")
      (hread : outcome.folder.read path = .ok text)
      (hfile : Fields.get? steps outcome.folder.files = some (.text text))
      (hothers : ∀ other, other ≠ steps →
        Fields.get? other outcome.folder.files = Fields.get? other before.files) :
      Delivered c before text outcome

theorem delivered_of_success {c : Command} (h : (c.runIn folder).fault = none) :
    ∃ text, Makes folder c text ∧ Delivered c folder text (c.runIn folder) := by
  rw [runIn] at h ⊢
  cases hrun : c.run (readingOf folder) with
  | error fault => simp [hrun] at h
  | ok product =>
    obtain ⟨text, hmakes, hdelivery⟩ := makes_of_run hrun
    refine ⟨text, hmakes, ?_⟩
    obtain ⟨delivery, notices⟩ := product
    obtain rfl : delivery = deliver c.target? text := hdelivery
    rw [hrun] at h
    cases htarget : c.target? with
    | none => exact .shown htarget rfl rfl
    | some path =>
      rw [htarget] at h
      cases hsteps : (folder.target path).steps? with
      | none =>
        obtain ⟨obstacle, hwrite⟩ := Folder.write_of_no_steps hsteps text
        simp [deliver, hwrite] at h
      | some steps =>
        have hwrite := Folder.write_of_steps? hsteps text
        simp only [deliver, hwrite]
        exact .written htarget hsteps rfl (Folder.read_put hsteps text) (Fields.get?_put_self ..)
          fun other hother => Fields.get?_put_of_ne hother ..

theorem success_of_makes {c : Command} {text : String} (hmakes : Makes folder c text)
    (htarget : ∀ path, c.target? = some path → (folder.target path).steps?.isSome) :
    (c.runIn folder).fault = none := by
  obtain ⟨notices, hrun⟩ := run_of_makes hmakes
  rw [runIn, hrun]
  cases hpath : c.target? with
  | none => rfl
  | some path =>
    obtain ⟨steps, hsteps⟩ := Option.isSome_iff_exists.1 (htarget path hpath)
    simp only [deliver, Folder.write_of_steps? hsteps text]

/-- **All or nothing.**  A command, and so every line that is read as one, fails without showing or
changing anything, or it delivers the whole artifact that it makes of the files.  It succeeds
exactly if there is such an artifact and the file that it goes to can be written; that file is the
one that was named, for a stylesheet with its extension added if the name has none.

A folder is the content of the working directory and nothing else.  An absolute path, or one that
leads out of the directory, leads to no file here, so of commands with such paths this says nothing
where there are files outside. -/
theorem fails_or_delivers (folder : Folder) (c : Command) :
    ((c.runIn folder).fault ≠ none ∧ (c.runIn folder).shown = "" ∧
        (c.runIn folder).folder = folder ∨
      (c.runIn folder).fault = none ∧
        ∃ text, Makes folder c text ∧ Delivered c folder text (c.runIn folder)) ∧
    ((c.runIn folder).fault = none ↔ ∃ text, Makes folder c text ∧
      ∀ path, c.target? = some path → (folder.target path).steps?.isSome) ∧
    ∀ mapping notes copiesInput namespaceUri path, ∃ written,
      (stylesheet mapping notes copiesInput namespaceUri (some path)).target? = some written ∧
        FileName.IsExtended "xsl" path written := by
  refine ⟨?_, ⟨?_, ?_⟩, ?_⟩
  · by_cases h : (c.runIn folder).fault = none
    · exact .inr ⟨h, delivered_of_success h⟩
    · exact .inl ⟨h, runIn_of_fault (Option.isSome_iff_ne_none.2 h)⟩
  · intro h
    obtain ⟨text, hmakes, hdelivered⟩ := delivered_of_success h
    refine ⟨text, hmakes, ?_⟩
    intro path hpath
    cases hdelivered with
    | shown htarget => rw [htarget] at hpath; cases hpath
    | written htarget hsteps =>
      obtain rfl := Option.some.inj (htarget.symm.trans hpath)
      rw [hsteps]
      rfl
  · rintro ⟨text, hmakes, htarget⟩
    exact success_of_makes hmakes htarget
  · intro mapping notes copiesInput namespaceUri path
    exact ⟨_, rfl, FileName.isExtended_withExtension (by decide) path⟩

end Command

end Crosswalk
