import Mathlib.Data.List.Infix
import SdkHeaders.Header.Entity
import SdkHeaders.Proofs.LayoutLines

/-!
# Parts of a header in its text

Where the lines of a member of a declaration, or of a function behind it, stand in the text of the
header.

Main results:

- Theorem `Layout.within_render`: what a line of a piece of code spells stands in the text that the
  code is written as, and theorems `Entity.within_fileText_of_member` and
  `Entity.within_fileText_of_function` say this of whole headers.
- Definition `Layout.memberLines` gives the lines of a member as they stand in a header, and theorem
  `Entity.memberLines_infix_fileText` says that they follow each other there.
-/

namespace SdkHeaders

open Header Text

/-! ## Texts within texts -/

namespace Text

/-- A text stands somewhere in another one. -/
def Within (x s : String) : Prop :=
  x.toList <:+: s.toList

theorem Within.trans {x s t : String} (h : Within x s) (h' : Within s t) : Within x t :=
  List.IsInfix.trans h h'

theorem within_of_eq {x s : String} (before after : String) (h : s = before ++ x ++ after) :
    Within x s :=
  ⟨before.toList, after.toList, by simp [h]⟩

theorem Within.append_right {x s : String} (h : Within x s) (before : String) :
    Within x (before ++ s) :=
  h.trans ⟨before.toList, [], by simp⟩

theorem within_unlines {ls : List String} {line : String} (h : line ∈ ls) :
    Within line (unlines ls) := by
  induction ls with
  | nil => cases h
  | cons first rest ih =>
      rcases List.mem_cons.mp h with rfl | h
      · exact ⟨[], "\n".toList ++ (unlines rest).toList, by simp [unlines]⟩
      · exact (ih h).append_right (first ++ "\n")

theorem lineFeed_not_mem_of_mem_lineList {cs line : List Char} (h : line ∈ lineList cs) :
    '\n' ∉ line := by
  fun_induction lineList cs generalizing line with
  | case1 => cases h
  | case2 rest ih =>
      rcases List.mem_cons.mp h with rfl | h
      · exact List.not_mem_nil
      · exact ih h
  | case3 rest ih =>
      rcases List.mem_cons.mp h with rfl | h
      · exact List.not_mem_nil
      · exact ih h
  | case4 c rest hreturn hfeed ih =>
      cases hlines : lineList rest with
      | nil =>
          rw [hlines] at h
          obtain rfl := List.mem_singleton.mp h
          simpa using Ne.symm hfeed
      | cons first others =>
          rw [hlines] at h ih
          rcases List.mem_cons.mp h with rfl | h
          · exact List.not_mem_cons_of_ne_of_not_mem (Ne.symm hfeed) (ih List.mem_cons_self)
          · exact ih (List.mem_cons_of_mem first h)

theorem lineFree_of_mem_lines {s line : String} (h : line ∈ lines s) : LineFree line := by
  obtain ⟨cs, hcs, rfl⟩ := List.mem_map.mp h
  rw [LineFree, String.toList_ofList]
  exact lineFeed_not_mem_of_mem_lineList hcs

/-- A character in front of a text leaves what stands within its lines there. -/
theorem exists_line_cons {x : List Char} {cs : List Char} (c : Char)
    (h : ∃ line ∈ lineList cs, x <:+: line) : ∃ line ∈ lineList (c :: cs), x <:+: line := by
  obtain ⟨line, hline, hx⟩ := h
  by_cases hfeed : c = '\n'
  · subst hfeed
    exact ⟨line, List.mem_cons_of_mem [] hline, hx⟩
  by_cases hreturn : c = '\r' → cs.head? ≠ some '\n'
  · rw [lineList_cons hfeed hreturn]
    cases hlines : lineList cs with
    | nil => exact absurd (hlines ▸ hline) List.not_mem_nil
    | cons first rest =>
        rw [hlines] at hline
        rcases List.mem_cons.mp hline with rfl | hline
        · exact ⟨c :: line, List.mem_cons_self, List.infix_cons hx⟩
        · exact ⟨line, List.mem_cons_of_mem _ hline, hx⟩
  · -- The character is part of the first line break.
    push Not at hreturn
    obtain ⟨rfl, hhead⟩ := hreturn
    obtain ⟨rest, rfl⟩ := List.head?_eq_some_iff.mp hhead
    exact ⟨line, hline, hx⟩

/-- A text on one line that stands within another text stands within one of its lines. -/
theorem Within.exists_line {x s : String} (hx : IsLine x) (hne : x ≠ "") (h : Within x s) :
    ∃ line ∈ lines s, Within x line := by
  obtain ⟨before, after, heq⟩ := h
  have hlist : ∀ before, ∃ line ∈ lineList (before ++ (x.toList ++ after)), x.toList <:+: line := by
    intro before
    induction before with
    | nil =>
        have hcs : x.toList ≠ [] := fun hnil => hne (String.toList_inj.mp hnil)
        rw [List.nil_append, lineList_append_of_isLine hcs hx.free hx.last]
        exact ⟨_, List.mem_cons_self, List.infix_append' [] _ _⟩
    | cons c before ih => exact exists_line_cons c ih
  obtain ⟨line, hline, hinfix⟩ := hlist before
  rw [← List.append_assoc, heq] at hline
  refine ⟨String.ofList line, List.mem_map_of_mem hline, ?_⟩
  rwa [Within, String.toList_ofList]

end Text

/-! ## Texts within layouts -/

namespace Layout

/-- A line of a piece of code spells a text. -/
inductive Spells (x : String) : Layout → Prop
  | line {s : String} (h : Within x s) : Spells x (.line s)
  | continuation {s : String} (h : Within x s) : Spells x (.continuation s)
  | text {s : String} (h : Within x s) : Spells x (.text s)
  | scope {close : String} {body : List Layout} {piece : Layout} (hpiece : piece ∈ body)
      (h : Spells x piece) : Spells x (.scope close body)

/-- A line after it was placed in a scope and read back. -/
def nested (indent line : String) : String :=
  dropReturn (placed indent 1 line)

variable {x indent : String}

/-- What is spelled on one line is found in a line of the code. -/
theorem Spells.exists_line (hx : IsLine x) (hne : x ≠ "") {piece : Layout}
    (h : Spells x piece) (level : Nat) :
    ∃ line ∈ piece.linesOfOne indent level, Within x line := by
  induction h generalizing level with
  | line h => exact ⟨_, List.mem_singleton_self _, h.append_right _⟩
  | continuation h => exact ⟨_, List.mem_singleton_self _, h.append_right _⟩
  | text h =>
      obtain ⟨line, hline, hwithin⟩ := h.exists_line hx hne
      have hnonempty : line ≠ "" := by
        rintro rfl
        have hnil := List.infix_nil.mp hwithin
        exact hne (String.toList_inj.mp hnil)
      refine ⟨_, List.mem_map_of_mem hline, ?_⟩
      rw [placed_of_ne hnonempty]
      exact hwithin.append_right _
  | scope hpiece _ ih =>
      obtain ⟨line, hline, hwithin⟩ := ih (level + 1)
      refine ⟨line, ?_, hwithin⟩
      exact List.mem_cons_of_mem _ (List.mem_append_left _
        ((linesOfOne_infix_linesOf hpiece).subset hline))

/-- What a line of a piece of code spells stands in the text that the code is written as. -/
theorem within_render (hx : IsLine x) (hne : x ≠ "") {pieces : List Layout} {piece : Layout}
    (hpiece : piece ∈ pieces) (h : Spells x piece) : Within x (render indent pieces) := by
  rw [render_eq]
  obtain ⟨line, hline, hwithin⟩ := h.exists_line hx hne 0
  exact hwithin.trans (within_unlines ((linesOfOne_infix_linesOf hpiece).subset hline))

end Layout

/-! ## Texts within headers -/

namespace Layout

/-- One of the scopes among pieces of code holds a text. -/
def HoldsText (s : String) (pieces : List Layout) : Prop :=
  ∃ close body, .scope close body ∈ pieces ∧ .text s ∈ body

namespace HoldsText

variable {s indent : String} {pieces : List Layout}

theorem within_render {x : String} (hx : IsLine x) (hne : x ≠ "") (h : HoldsText s pieces)
    (hwithin : Within x s) : Within x (render indent pieces) := by
  obtain ⟨close, body, hscope, htext⟩ := h
  exact Layout.within_render hx hne hscope (.scope htext (.text hwithin))

/-- The lines of a text in a scope follow each other in the text of the code. -/
theorem infix_lines_render (hindent : LineFree indent) (h : HoldsText s pieces) {ls : List String}
    (hls : ls <:+: lines s) : ls.map (nested indent) <:+: lines (render indent pieces) := by
  obtain ⟨close, body, hscope, htext⟩ := h
  have hfree : ∀ l ∈ ls, LineFree (placed indent 1 l) := fun l hl =>
    lineFree_placed hindent (lineFree_of_mem_lines (hls.subset hl))
  have hbody : ls.map (placed indent 1) <:+: linesOf indent 1 body :=
    (hls.map _).trans (linesOfOne_infix_linesOf htext)
  have hpieces : linesOf indent 1 body <:+: linesOf indent 0 pieces :=
    (List.infix_cons (List.infix_append' [] _ _)).trans (linesOfOne_infix_linesOf hscope)
  have hnested : ls.map (nested indent) = (ls.map (placed indent 1)).flatMap endedLines := by
    rw [List.map_eq_flatMap, List.flatMap_map]
    exact List.flatMap_congr fun l hl => (endedLines_of_lineFree (hfree l hl)).symm
  rw [hnested, render_eq, lines_unlines_eq_flatMap]
  exact (hbody.trans hpieces).flatMap endedLines

end HoldsText

/-- The lines of a member of a declaration as they stand in a header, nested in the declaration and
in the namespace. -/
def memberLines (indent : String) (pieces : List Layout) : List String :=
  ((lines (render indent pieces)).map (nested indent)).map (nested indent)

theorem memberLines_append (indent : String) (before after : List Layout) :
    memberLines indent (before ++ after) =
      memberLines indent before ++ memberLines indent after := by
  simp [memberLines, render_eq, lines_unlines_eq_flatMap]

end Layout

/-- A declaration holds the text of each of its members. -/
theorem Header.Declaration.holdsText_layout {d : Declaration} {m : Member} (hm : m ∈ d.members)
    (indent : String) :
    Layout.HoldsText (Layout.render indent m.layout) (d.layout indent) := by
  refine ⟨_, _, List.mem_append_right _ (List.mem_singleton_self _), List.mem_append_right _ ?_⟩
  exact Layout.mem_spaced (List.mem_map_of_mem hm) (List.mem_singleton_self _)

namespace Entity

variable {target : Target} {e : Entity}

theorem scope_mem_fileLayout (target : Target) (space : String) (e : Entity) :
    Layout.braced (.text (e.declarationText target) ::
      (e.functionTexts target).flatMap fun f => [.blank, .text f]) ∈ e.fileLayout target space :=
  List.mem_append_right _ (List.mem_cons_of_mem _ (List.mem_singleton_self _))

theorem holdsText_declaration (target : Target) (space : String) (e : Entity) :
    Layout.HoldsText (e.declarationText target) (e.fileLayout target space) :=
  ⟨_, _, scope_mem_fileLayout target space e, List.mem_cons_self⟩

theorem holdsText_function {f : FreeFunction} (hf : f ∈ e.functions) (space : String) :
    Layout.HoldsText (Layout.render target.indent f.layout) (e.fileLayout target space) := by
  refine ⟨_, _, scope_mem_fileLayout target space e, List.mem_cons_of_mem _ ?_⟩
  exact List.mem_flatMap.mpr ⟨_, List.mem_map_of_mem hf, by simp⟩

section

variable {x : String} (hx : IsLine x) (hne : x ≠ "") {piece : Layout} (h : Layout.Spells x piece)

include hx hne h

/-- What a member of a declaration spells stands in the text of the header. -/
theorem within_fileText_of_member {space : String} {m : Member} (hm : m ∈ e.declaration.members)
    (hpiece : piece ∈ m.layout) : Within x (e.fileText target space) := by
  have hmember : Within x (Layout.render target.indent m.layout) :=
    Layout.within_render hx hne hpiece h
  have hdeclaration : Within x (e.declarationText target) :=
    (Declaration.holdsText_layout hm target.indent).within_render hx hne hmember
  exact (holdsText_declaration target space e).within_render hx hne hdeclaration

/-- What a function behind a declaration spells stands in the text of the header. -/
theorem within_fileText_of_function {space : String} {f : FreeFunction} (hf : f ∈ e.functions)
    (hpiece : piece ∈ f.layout) : Within x (e.fileText target space) :=
  (holdsText_function hf space).within_render hx hne (Layout.within_render hx hne hpiece h)

end

/-- The lines of a member of a declaration follow each other in the text of the header. -/
theorem memberLines_infix_fileText (hindent : LineFree target.indent) {m : Member}
    (hm : m ∈ e.declaration.members) (space : String) :
    Layout.memberLines target.indent m.layout <:+: lines (e.fileText target space) := by
  have hdeclaration : (lines (Layout.render target.indent m.layout)).map
      (Layout.nested target.indent) <:+: lines (e.declarationText target) :=
    (Declaration.holdsText_layout hm target.indent).infix_lines_render hindent List.infix_rfl
  exact (holdsText_declaration target space e).infix_lines_render hindent hdeclaration

end Entity

end SdkHeaders
