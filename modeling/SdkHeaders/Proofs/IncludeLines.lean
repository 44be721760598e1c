import SdkHeaders.Proofs.DeclarationText
import SdkHeaders.Proofs.DependencySets
import SdkHeaders.Proofs.UniqueNames

/-!
# Include lines

Which headers are included for given dependencies, and the lines that include them.

Main results:

- Definition `IncludeBlock.includeLines` lists the lines of an include block, and theorem
  `IncludeBlock.render_eq` says that its text is put together from them.
- Structure `IncludeBlock.ReadFrom` says what is read off the text of an include block, and theorem
  `IncludeBlock.readFrom_render` that this is read off it unless a header breaks its line.
- Theorem `Descriptor.headerFile_not_mem_includes`: no header includes itself.
- Theorem `Dependencies.includes_spec` puts these facts together.
-/

namespace SdkHeaders

open Text (NameSet LineFree lines unlines)

/-! ## Texts of lines -/

/-- Lines between line feeds, with one more at the end, are the text of the lines. -/
theorem Text.intercalate_lineFeed {ls : List String} (h : ls ≠ []) :
    "\n".intercalate ls ++ "\n" = unlines ls := by
  induction ls with
  | nil => exact absurd rfl h
  | cons line rest ih =>
      by_cases hrest : rest = []
      · rw [hrest, String.intercalate_singleton]
        simp [unlines]
      · rw [String.intercalate_cons_of_ne_nil hrest, String.append_assoc, ih hrest, unlines]

/-- A text of lines ends in a line feed unless there is no line. -/
theorem Text.exists_unlines_eq_iff {ls : List String} :
    (∃ text, unlines ls = text ++ "\n") ↔ ls ≠ [] := by
  constructor
  · rintro ⟨text, htext⟩ rfl
    have hnone : '\n' ∉ (unlines []).toList := by simp [unlines]
    exact hnone (by simp [htext])
  · intro h
    exact ⟨"\n".intercalate ls, (intercalate_lineFeed h).symm⟩

namespace IncludeBlock

/-! ## The text of an include block -/

/-- The empty line between the two groups, if there are two. -/
def gap (block : IncludeBlock) : List String :=
  if block.system.toList = [] ∨ block.user.toList = [] then [] else [""]

/-- The lines of an include block: library headers in angle brackets, then the others in quotes. -/
def includeLines (block : IncludeBlock) : List String :=
  block.system.toList.map systemLine ++ block.gap ++ block.user.toList.map userLine

/-- The text of an include block is put together from its lines. -/
theorem render_eq (block : IncludeBlock) : block.render = unlines block.includeLines := by
  by_cases hs : block.system.toList = []
  · by_cases hu : block.user.toList = []
    · simp [render, groups, includeLines, gap, hs, hu, unlines]
    · have huser : block.user.toList.map userLine ≠ [] := by simpa using hu
      simp [render, groups, includeLines, gap, hs, hu, ← Text.intercalate_lineFeed huser]
  · have hsystem : block.system.toList.map systemLine ≠ [] := by simpa using hs
    by_cases hu : block.user.toList = []
    · simp [render, groups, includeLines, gap, hs, hu, ← Text.intercalate_lineFeed hsystem]
    · have huser : block.user.toList.map userLine ≠ [] := by simpa using hu
      have hgroups : block.groups =
          [block.system.toList.map systemLine, block.user.toList.map userLine] := by
        simp [groups, hs, hu]
      have hgap : block.gap = [""] := by simp [gap, hs, hu]
      have hblank : unlines [""] = "\n" := rfl
      have hbreak : "\n\n" = "\n" ++ "\n" := rfl
      rw [render, hgroups, includeLines, hgap, Text.unlines_append, Text.unlines_append, hblank,
        ← Text.intercalate_lineFeed hsystem, ← Text.intercalate_lineFeed huser]
      simp only [List.map_cons, List.map_nil, String.intercalate_cons_cons,
        String.intercalate_singleton, hbreak, String.append_assoc]

/-- Only an include block without headers has no lines. -/
theorem includeLines_ne_nil_iff (block : IncludeBlock) :
    block.includeLines ≠ [] ↔ block.isEmpty = false := by
  by_cases hs : block.system.toList = [] <;> by_cases hu : block.user.toList = [] <;>
    simp [includeLines, gap, isEmpty, NameSet.isEmpty, hs, hu]

/-! ## Reading include lines -/

/-- The header in angle brackets on a line that includes one. -/
def angled? (line : String) : Option String :=
  between "#include <" ">" line

/-- The header in quotes on a line that includes one. -/
def quoted? (line : String) : Option String :=
  between "#include \"" "\"" line

theorem angled?_systemLine (header : String) : angled? (systemLine header) = some header :=
  between_eq_some_iff.mpr rfl

theorem quoted?_userLine (header : String) : quoted? (userLine header) = some header :=
  between_eq_some_iff.mpr rfl

theorem systemLine_ne_userLine {header other : String} : systemLine header ≠ userLine other := by
  intro h
  have hlist := congrArg String.toList h
  simp [systemLine, userLine] at hlist

theorem angled?_userLine (header : String) : angled? (userLine header) = none := by
  rw [Option.eq_none_iff_forall_not_mem]
  intro other hother
  exact systemLine_ne_userLine (between_eq_some_iff.mp hother).symm

theorem quoted?_systemLine (header : String) : quoted? (systemLine header) = none := by
  rw [Option.eq_none_iff_forall_not_mem]
  intro other hother
  exact systemLine_ne_userLine (between_eq_some_iff.mp hother)

theorem isLine_systemLine {header : String} (h : LineFree header) :
    Text.IsLine (systemLine header) :=
  Header.Contract.isLine_append (Text.lineFree_append.mpr ⟨by decide, h⟩) (by decide) rfl
    (by decide : '>' ≠ '\r')

theorem isLine_userLine {header : String} (h : LineFree header) : Text.IsLine (userLine header) :=
  Header.Contract.isLine_append (Text.lineFree_append.mpr ⟨by decide, h⟩) (by decide) rfl
    (by decide : '"' ≠ '\r')

/-- Nothing is read off the empty line between the groups. -/
theorem filterMap_gap (block : IncludeBlock) :
    block.gap.filterMap angled? = [] ∧ block.gap.filterMap quoted? = [] := by
  unfold gap
  split
  · exact ⟨rfl, rfl⟩
  · exact ⟨by decide, by decide⟩

/-- What is read off the text of an include block: its lines, and the headers in angle brackets and
in quotes on them. -/
structure ReadFrom (block : IncludeBlock) (text : String) : Prop where
  lines_eq : lines text = block.includeLines
  angled_eq : (lines text).filterMap angled? = block.system.toList
  quoted_eq : (lines text).filterMap quoted? = block.user.toList

/-- The headers of an include block are read off its text, unless one of them breaks its line. -/
theorem readFrom_render {block : IncludeBlock} (hsystem : ∀ h ∈ block.system.toList, LineFree h)
    (huser : ∀ h ∈ block.user.toList, LineFree h) : block.ReadFrom block.render := by
  have hisLine : ∀ line ∈ block.includeLines, Text.IsLine line := by
    simp only [includeLines, List.forall_mem_append, List.forall_mem_map]
    refine ⟨⟨fun h hh => ?_, fun line hline => ?_⟩, fun h hh => ?_⟩
    · exact isLine_systemLine (hsystem h hh)
    · unfold gap at hline
      split at hline
      · cases hline
      · rw [List.mem_singleton.mp hline]
        decide
    · exact isLine_userLine (huser h hh)
  have hlines : lines block.render = block.includeLines := by
    rw [render_eq, Text.lines_unlines_of_isLine hisLine]
  obtain ⟨hangled, hquoted⟩ := block.filterMap_gap
  refine ⟨hlines, ?_, ?_⟩
  · rw [hlines, includeLines, List.filterMap_append, List.filterMap_append, hangled,
      List.filterMap_map, List.filterMap_map]
    simp [angled?_systemLine, angled?_userLine]
  · rw [hlines, includeLines, List.filterMap_append, List.filterMap_append, hquoted,
      List.filterMap_map, List.filterMap_map]
    simp [quoted?_systemLine, quoted?_userLine]

end IncludeBlock

/-! ## The includes of dependencies -/

/-- No header includes itself. -/
theorem Descriptor.headerFile_not_mem_includes {setting : Header.Setting} {d : Descriptor}
    {e : Entity} (h : d.render setting = .ok e) (target : Target) :
    target.headerFile e.name ∉ (e.includes target).user.toList := by
  obtain ⟨names, hrendered⟩ := render_eq_ok_iff.mp h
  obtain ⟨-, -, hdependencies⟩ := hrendered.spec
  have howner : e.dependencies.owner = e.name := by
    rw [hdependencies, Dependencies.owner_foldl_add]
    rfl
  have hsound : e.dependencies.Sound := by
    rw [hdependencies]
    exact (Dependencies.sound_new e.name).foldl_add names
  rw [Entity.includes, Dependencies.mem_user_includes]
  rintro ⟨x, hx, hheader⟩
  rw [headerFile_injective target hheader, ← howner] at hx
  exact hsound.owner_absent hx

namespace Dependencies

/-- The headers in angle brackets are those in the rows of the table for library names. -/
theorem mem_system_includes_iff {d : Dependencies} {target : Target} {header : String} :
    header ∈ (d.includes target).system.toList ↔
      ∃ row ∈ target.systemHeaders, row.1 ∈ d.system.toList ∧ row.2 = header := by
  simp only [mem_system_includes, Target.headersFor, List.mem_map, List.mem_filter,
    decide_eq_true_eq]
  constructor
  · rintro ⟨_, hname, row, ⟨hrow, rfl⟩, rfl⟩
    exact ⟨row, hrow, hname, rfl⟩
  · rintro ⟨row, hrow, hname, rfl⟩
    exact ⟨row.1, hname, row, ⟨hrow, rfl⟩, rfl⟩

/-- Dependencies come with the headers of all rows of the table of library names that belong to one
of their names, and with a header for each name that other headers declare, both increasing
strictly.  The text of the include block consists of a line for each header, library headers first,
and of an empty line between the two groups if there are two; it ends in a line feed unless there is
no header.  If no line is broken, the headers are read off its lines.  No header includes itself. -/
theorem includes_spec (d : Dependencies) (target : Target) :
    ((∀ header, header ∈ (d.includes target).system.toList ↔
          ∃ row ∈ target.systemHeaders, row.1 ∈ d.system.toList ∧ row.2 = header) ∧
        ∀ header, header ∈ (d.includes target).user.toList ↔
          ∃ name ∈ d.user.toList, name ++ "." ++ target.headerExtension = header) ∧
      ((d.includes target).system.Increasing ∧ (d.includes target).user.Increasing) ∧
      ((d.includes target).render = unlines (d.includes target).includeLines ∧
        ((∃ text, (d.includes target).render = text ++ "\n") ↔
          (d.includes target).isEmpty = false)) ∧
      ((∀ name ∈ d.user.toList, LineFree name) → (∀ row ∈ target.systemHeaders, LineFree row.2) →
        LineFree target.headerExtension →
          (d.includes target).ReadFrom (d.includes target).render) ∧
      ∀ (setting : Header.Setting) (descriptor : Descriptor) (e : Entity),
        descriptor.render setting = .ok e →
          target.headerFile e.name ∉ (e.includes target).user.toList := by
  refine ⟨⟨fun _ => mem_system_includes_iff, fun _ => mem_user_includes⟩,
    ⟨Text.NameSet.increasing_ofList _, Text.NameSet.increasing_ofList _⟩,
    ⟨IncludeBlock.render_eq _, ?_⟩, ?_,
    fun _ _ _ h => Descriptor.headerFile_not_mem_includes h target⟩
  · rw [IncludeBlock.render_eq, Text.exists_unlines_eq_iff]
    exact (d.includes target).includeLines_ne_nil_iff
  · intro hnames hrows hextension
    apply IncludeBlock.readFrom_render
    · intro header hheader
      obtain ⟨row, hrow, -, rfl⟩ := mem_system_includes_iff.mp hheader
      exact hrows row hrow
    · intro header hheader
      obtain ⟨name, hname, rfl⟩ := mem_user_includes.mp hheader
      exact Text.lineFree_append.mpr
        ⟨Text.lineFree_append.mpr ⟨hnames name hname, by decide⟩, hextension⟩

/-- Dependencies on two names that are listed in another order than their headers. -/
def groupNeeds : Dependencies :=
  (new "Group").addAll [.user "User", .user "User-Role", .system "std::wstring", .system "bool"]

theorem groupNeeds_includes :
    groupNeeds.user.toList = ["User", "User-Role"] ∧
      (groupNeeds.includes .standard).render =
        "#include <string>\n\n#include \"User-Role.h\"\n#include \"User.h\"\n" ∧
      ((∀ name ∈ groupNeeds.user.toList, LineFree name) ∧
        (∀ row ∈ Target.standard.systemHeaders, LineFree row.2) ∧
        LineFree Target.standard.headerExtension) ∧
      (groupNeeds.includes .standard).ReadFrom (groupNeeds.includes .standard).render ∧
      ∃ e, (emptyEnumData "color").render (Model.standardSetting Model.defaultServiceUrl) = .ok e ∧
        Target.standard.headerFile e.name ∉ (e.includes .standard).user.toList := by
  obtain ⟨-, -, -, hread, hown⟩ := includes_spec groupNeeds .standard
  have hnames : ∀ name ∈ groupNeeds.user.toList, LineFree name := by decide +kernel
  have hrows : ∀ row ∈ Target.standard.systemHeaders, LineFree row.2 := by decide +kernel
  have hextension : LineFree Target.standard.headerExtension := by decide
  exact ⟨by decide +kernel, by decide +kernel, ⟨hnames, hrows, hextension⟩,
    hread hnames hrows hextension, _, rfl, hown _ (emptyEnumData "color") _ rfl⟩

end Dependencies

end SdkHeaders
