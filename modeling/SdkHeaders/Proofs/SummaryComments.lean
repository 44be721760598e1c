import SdkHeaders.Document.Load
import SdkHeaders.Proofs.Generation
import SdkHeaders.Proofs.HeaderText

/-!
# Summaries in comments

The summary of a data member is written as one line of a comment in front of the member, and the
comment is placed in the scopes of its declaration and of the namespace.

Main results:

- Predicate `IsComment` says that a line is a comment.
- Definition `commentBlock` gives the lines of the comment of a member as they stand in a header.
- Theorem `forall_isComment_commentBlock_iff`: all of these lines are comments exactly if every
  line of the summary after the first one is a comment of its own.
- Theorem `Model.commentsOn_properties` says this of every property of every data type of a model.
- Theorem `noteModel_summary_outside`: there are models with a summary that leaves its comment.
-/

namespace SdkHeaders

open Header Text

/-! ## Comments -/

/-- The characters that indent lines. -/
def indentChars : List Char := [' ', '\t']

/-- A text that indents lines. -/
def IsIndentation (s : String) : Prop :=
  ∀ c ∈ s.toList, c ∈ indentChars

instance (s : String) : Decidable (IsIndentation s) :=
  List.decidableBAll (· ∈ indentChars) s.toList

/-- A line is a comment if three slashes follow its indentation. -/
def IsComment (line : String) : Prop :=
  "///".toList <+: line.toList.dropWhile (· ∈ indentChars)

instance (line : String) : Decidable (IsComment line) :=
  inferInstanceAs (Decidable (_ <+: _))

theorem IsIndentation.lineFree {indent : String} (h : IsIndentation indent) : LineFree indent := by
  have hfeed : '\n' ∉ indentChars := by decide
  exact fun hmem => hfeed (h _ hmem)

theorem isComment_of_prefix {line : String} (h : "///".toList <+: line.toList) :
    IsComment line := by
  obtain ⟨rest, hrest⟩ := h
  rw [IsComment, ← hrest]
  exact ⟨rest, rfl⟩

theorem dropWhile_dropReturnChars (cs : List Char) :
    (dropReturnChars cs).dropWhile (· ∈ indentChars) =
      dropReturnChars (cs.dropWhile (· ∈ indentChars)) := by
  fun_induction dropReturnChars cs with
  | case1 => rfl
  | case2 => rfl
  | case3 c hc =>
      by_cases hindent : c ∈ indentChars <;> simp [hindent, dropReturnChars, hc]
  | case4 c d rest ih =>
      by_cases hindent : c ∈ indentChars
      · simpa [hindent] using ih
      · simp [hindent, dropReturnChars]

theorem eq_dropReturnChars_or (cs : List Char) :
    cs = dropReturnChars cs ∨ cs = dropReturnChars cs ++ ['\r'] := by
  fun_induction dropReturnChars cs with
  | case1 => exact .inl rfl
  | case2 => exact .inr rfl
  | case3 c hc => exact .inl rfl
  | case4 c d rest ih => simpa using ih

/-- A carriage return at its end does not matter to whether a line is a comment. -/
theorem isComment_dropReturn_iff (line : String) :
    IsComment (dropReturn line) ↔ IsComment line := by
  rw [IsComment, dropReturn, String.toList_ofList (l := dropReturnChars line.toList),
    dropWhile_dropReturnChars, IsComment]
  generalize line.toList.dropWhile (· ∈ indentChars) = cs
  rcases eq_dropReturnChars_or cs with heq | heq
  · rw [← heq]
  · have hne : "///".toList ≠ dropReturnChars cs ++ ['\r'] := by
      intro h
      have hlast := congrArg List.getLast? h
      simp at hlast
    conv_rhs => rw [heq, List.prefix_concat_iff]
    exact (or_iff_right hne).symm

/-- Further indentation does not matter to whether a line is a comment. -/
theorem isComment_placed_iff {indent : String} (hindent : IsIndentation indent) (line : String) :
    IsComment (Layout.placed indent 1 line) ↔ IsComment line := by
  unfold Layout.placed
  split
  · next hempty => rw [hempty]
  · have hskip : ∀ c ∈ indent.toList, decide (c ∈ indentChars) = true :=
      fun c hc => decide_eq_true (hindent c hc)
    simp [IsComment, Builder.indentation, List.dropWhile_append_of_pos hskip]

theorem isComment_nested_iff {indent : String} (hindent : IsIndentation indent) (line : String) :
    IsComment (Layout.nested indent line) ↔ IsComment line := by
  rw [Layout.nested, isComment_dropReturn_iff, isComment_placed_iff hindent]

/-! ## Comments in headers -/

/-- The lines of the comment of a member as they stand in a header. -/
def commentBlock (indent summary : String) : List String :=
  (Builder.indentation indent 2 ++ "/// <summary>") ::
    (Layout.memberLines indent [.line ("/// " ++ summary)] ++
      [Builder.indentation indent 2 ++ "/// </summary>"])

section Blocks

variable {indent : String}

theorem nested_of_isLine (hindent : LineFree indent) {line : String} (h : IsLine line) :
    Layout.nested indent line = Layout.placed indent 1 line :=
  (Layout.isLine_placed hindent h).dropReturn_eq

/-- A line without line feeds stays one line of a header. -/
theorem memberLines_of_isLine (hindent : LineFree indent) (line : String) (h : IsLine line)
    (hne : line ≠ "") :
    Layout.memberLines indent [.line line] = [Builder.indentation indent 2 ++ line] := by
  have hlines : lines (Layout.render indent [.line line]) = [line] := by
    rw [Layout.render_eq, lines_unlines_of_isLine] <;> simp [h]
  rw [Layout.memberLines, hlines, List.map_singleton, List.map_singleton,
    nested_of_isLine hindent h, nested_of_isLine hindent (Layout.isLine_placed hindent h),
    Layout.placed_placed, Layout.placed_of_ne hne]

theorem memberLines_summaryLines (hindent : LineFree indent) (summary : String) :
    Layout.memberLines indent (summaryLines summary) = commentBlock indent summary := by
  have hopen := memberLines_of_isLine hindent "/// <summary>"
    ⟨by decide, by decide⟩ (by decide)
  have hclose := memberLines_of_isLine hindent "/// </summary>"
    ⟨by decide, by decide⟩ (by decide)
  have hparts : summaryLines summary = [.line "/// <summary>"] ++
      ([.line ("/// " ++ summary)] ++ [.line "/// </summary>"]) := rfl
  rw [hparts, Layout.memberLines_append, Layout.memberLines_append, hopen, hclose]
  rfl

/-- What stands in front of a text comes to stand in front of its first line. -/
theorem endedLines_append {x : String} (hx : IsLine x) (hne : x ≠ "") (s : String) :
    endedLines (x ++ s) = (x ++ (endedLines s).headD "") :: (endedLines s).tail := by
  have hcs : x.toList ≠ [] := fun hnil => hne (String.toList_inj.mp hnil)
  have hlines := lineList_append_of_isLine hcs hx.free hx.last (s.toList ++ ['\n'])
  rw [endedLines, String.toList_append, List.append_assoc, hlines, endedLines, List.map_cons,
    List.map_tail]
  refine congrArg₂ List.cons ?_ rfl
  cases lineList (s.toList ++ ['\n']) with
  | nil => simp
  | cons first rest => simp

theorem forall_isComment_memberLines_iff (hindent : IsIndentation indent) (pieces : List Layout) :
    (∀ line ∈ Layout.memberLines indent pieces, IsComment line) ↔
      ∀ line ∈ (Layout.linesOf indent 0 pieces).flatMap endedLines, IsComment line := by
  rw [Layout.memberLines, Layout.render_eq, lines_unlines_eq_flatMap, List.forall_mem_map,
    List.forall_mem_map]
  exact forall₂_congr fun line _ => by
    rw [isComment_nested_iff hindent, isComment_nested_iff hindent]

/-- The lines of the comment of a member are comments exactly if the lines of the summary after
the first one are. -/
theorem forall_isComment_commentBlock_iff (hindent : IsIndentation indent) (summary : String) :
    (∀ line ∈ commentBlock indent summary, IsComment line) ↔
      ∀ line ∈ (endedLines summary).tail, IsComment line := by
  have hfirst : IsComment ("/// " ++ (endedLines summary).headD "") :=
    isComment_of_prefix ⟨' ' :: ((endedLines summary).headD "").toList, by simp⟩
  have hlines : (Layout.linesOf indent 0 (summaryLines summary)).flatMap endedLines =
      "/// <summary>" :: ("/// " ++ (endedLines summary).headD "") ::
        ((endedLines summary).tail ++ ["/// </summary>"]) := by
    have hmarks : endedLines "/// <summary>" = ["/// <summary>"] ∧
        endedLines "/// </summary>" = ["/// </summary>"] := by decide
    simp [summaryLines, hmarks, endedLines_append (x := "/// ") ⟨by decide, by decide⟩ (by decide)]
  rw [← memberLines_summaryLines hindent.lineFree,
    forall_isComment_memberLines_iff hindent, hlines, List.forall_mem_cons, List.forall_mem_cons,
    List.forall_mem_append, List.forall_mem_singleton]
  constructor
  · exact fun h => h.2.2.1
  · exact fun h => ⟨by decide, hfirst, h, by decide⟩

end Blocks

/-- The lines of the data member of a property as they stand in a header. -/
def Property.fieldLines (target : Target) (p : Property) : List String :=
  Layout.memberLines target.indent
    [.line ((p.memberType target).text ++ " " ++ target.naming.memberName p.name ++ ";")]

/-- A header comments on a property. -/
structure Entity.CommentsOn (target : Target) (space : String) (e : Entity) (p : Property) :
    Prop where
  /-- The comment stands in front of the data member. -/
  placed : commentBlock target.indent p.summary ++ p.fieldLines target <:+:
    lines (e.fileText target space)
  /-- All lines of the comment are comments exactly if the lines of the summary after the first
  one are. -/
  isComment_iff : (∀ line ∈ commentBlock target.indent p.summary, IsComment line) ↔
    ∀ line ∈ (endedLines p.summary).tail, IsComment line

/-- The header of a class comments on each of its properties. -/
theorem ClassDecl.commentsOn {target : Target} (hindent : IsIndentation target.indent)
    {c : ClassDecl} {p : Property} (hp : p ∈ c.properties) (space : String) :
    (c.dataEntity target).CommentsOn target space p where
  placed := by
    have hmember : p.member target ∈ (c.dataEntity target).declaration.members :=
      List.mem_append_left _ (List.mem_map_of_mem hp)
    rw [Property.fieldLines, ← memberLines_summaryLines hindent.lineFree,
      ← Layout.memberLines_append]
    exact Entity.memberLines_infix_fileText hindent.lineFree hmember space
  isComment_iff := forall_isComment_commentBlock_iff hindent p.summary

/-- The header of the data type of a class of a model comments on each property of the class: the
comment stands in front of the data member, and its lines are comments exactly if the lines of the
summary after the first one are. -/
theorem Model.commentsOn_properties {model : Model} {setting : Setting} {ds : List Descriptor}
    (hindent : IsIndentation setting.target.indent) (hds : model.descriptors setting = .ok ds) :
    ∃ es, model.entities setting = .ok es ∧
      ∀ c, (.ofClass c, .dataType) ∈ model.bindings →
        ∃ e ∈ es, e.name = setting.target.naming.roleName (.ofClass c) .dataType ∧
          e.role = .dataType ∧
            ∀ p ∈ c.properties, e.CommentsOn setting.target model.headerSpace p := by
  obtain ⟨es, hes⟩ := exists_entities hds
  refine ⟨es, hes, fun c hc => ?_⟩
  obtain ⟨e, he, names, hrendered⟩ := exists_rendered_of_binding hes hc
  obtain ⟨hname, hrole, -⟩ := hrendered.spec
  refine ⟨e, he, hname, hrole, fun p hp => ?_⟩
  cases hrendered with
  | facet hcontract => cases hcontract
  | classData => exact c.commentsOn hindent hp _

/-! ## A summary outside its comment -/

/-- A document about a note whose title is described on two lines. -/
def noteFile : SourceFile where
  name := "model.json"
  text := "[\"demo\", [], [[\"note\", \"complex\", null," ++
    " [[\"title\", \"String\", false, false, \"First line.\\nSecond line.\"]]]]]"

/-- The title of a note. -/
def noteTitle : Property where
  name := "title"
  type := "String"
  collection := false
  navigation := false
  description := some "First line.\nSecond line."
  owner := "note"

/-- The class of notes. -/
def noteClass : ClassDecl where
  name := "note"
  kind := .complex
  base := none
  properties := [noteTitle]

/-- The model of notes. -/
def noteModel : Model :=
  (Model.new "demo").addClass noteClass

/-- The header of notes comments on their titles. -/
theorem noteModel_commentsOn :
    IsIndentation Target.standard.indent ∧ ∃ ds,
      noteModel.descriptors (Model.standardSetting Model.defaultServiceUrl) = .ok ds ∧ ∃ es,
        noteModel.entities (Model.standardSetting Model.defaultServiceUrl) = .ok es ∧
          ∀ c, (.ofClass c, .dataType) ∈ noteModel.bindings →
            ∃ e ∈ es, e.name = Target.standard.naming.roleName (.ofClass c) .dataType ∧
              e.role = .dataType ∧
                ∀ p ∈ c.properties, e.CommentsOn .standard noteModel.headerSpace p :=
  ⟨by decide, _, rfl, Model.commentsOn_properties (by decide) rfl⟩

/-- The comment on the title of a note of a loaded model holds a line that is no comment. -/
theorem noteModel_summary_outside :
    noteFile.load .json = .ok noteModel ∧ ∃ es,
      noteModel.entities (Model.standardSetting Model.defaultServiceUrl) = .ok es ∧ ∃ e ∈ es,
        commentBlock Target.standard.indent noteTitle.summary ++ noteTitle.fieldLines .standard <:+:
            lines (e.fileText .standard noteModel.headerSpace) ∧
          "\t\tSecond line." ∈ commentBlock Target.standard.indent noteTitle.summary ∧
          ¬ IsComment "\t\tSecond line." := by
  have hcomments : (noteClass.dataEntity .standard).CommentsOn .standard noteModel.headerSpace
      noteTitle :=
    noteClass.commentsOn (by decide) (List.mem_singleton_self noteTitle) noteModel.headerSpace
  exact ⟨by decide +kernel, [_], rfl, _, List.mem_singleton_self _, hcomments.placed,
    by decide +kernel, by decide⟩

end SdkHeaders
