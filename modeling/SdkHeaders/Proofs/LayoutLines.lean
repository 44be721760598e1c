import Mathlib.Data.List.Basic
import SdkHeaders.Code.Layout
import SdkHeaders.Derive.Naming

/-!
# Lines of layouts

The lines that a layout is written as, and how they are read back from its text.

Main results:

- Theorem `Text.lines_unlines_eq_flatMap` gives the lines of a text that was put together from
  texts, and theorem `Text.lines_unlines` says that texts without line feeds are these lines, apart
  from a carriage return at their ends.
- Definition `Layout.linesOf` lists the lines of a layout, and theorem `Layout.render_eq` says
  that its text is put together from them.
- Theorem `Layout.linesOfOne_text_render`: pieces of code that are laid out by themselves and
  then placed in a scope keep their lines.
-/

namespace SdkHeaders

/-! ## Lines of a text -/

namespace Text

/-- A text without line feeds. -/
abbrev LineFree (s : String) : Prop :=
  '\n' ∉ s.toList

theorem lineFree_append {s t : String} :
    LineFree (s ++ t) ↔ LineFree s ∧ LineFree t := by
  simp [LineFree]

/-- Drop a carriage return at the end. -/
def dropReturnChars : List Char → List Char
  | [] => []
  | [c] => if c = '\r' then [] else [c]
  | c :: d :: rest => c :: dropReturnChars (d :: rest)

/-- A line as it is read when a line feed follows. -/
def dropReturn (s : String) : String :=
  String.ofList (dropReturnChars s.toList)

theorem lineList_cons {c : Char} {rest : List Char} (hfeed : c ≠ '\n')
    (hreturn : c = '\r' → rest.head? ≠ some '\n') :
    lineList (c :: rest) = consLine c (lineList rest) := by
  rw [lineList]
  · rintro more rfl rfl
    exact hreturn rfl rfl
  · exact hfeed

/-- A line feed ends a line. -/
theorem lineList_append {cs : List Char} (h : '\n' ∉ cs) (rest : List Char) :
    lineList (cs ++ '\n' :: rest) = dropReturnChars cs :: lineList rest := by
  fun_induction dropReturnChars cs with
  | case1 => rfl
  | case2 => rfl
  | case3 c hc =>
      have hne : '\n' ≠ c := by simpa using h
      rw [List.singleton_append, lineList_cons hne.symm fun heq => absurd heq hc]
      rfl
  | case4 c d more ih =>
      simp only [List.mem_cons, not_or] at h
      have hd : (d :: more ++ '\n' :: rest).head? ≠ some '\n' := by simpa using Ne.symm h.2.1
      rw [List.cons_append, lineList_cons (Ne.symm h.1) fun _ => hd,
        ih (by simpa [not_or] using h.2)]
      rfl

/-- The text of lines, each of which ends in a line feed. -/
def unlines : List String → String
  | [] => ""
  | line :: rest => line ++ "\n" ++ unlines rest

theorem unlines_append (ls ms : List String) : unlines (ls ++ ms) = unlines ls ++ unlines ms := by
  induction ls with
  | nil => simp [unlines]
  | cons line rest ih => simp [unlines, ih, String.append_assoc]

/-- A line feed sets apart what stands before it. -/
theorem lineList_append_lineFeed (cs rest : List Char) :
    lineList (cs ++ '\n' :: rest) = lineList (cs ++ ['\n']) ++ lineList rest := by
  by_cases h : '\n' ∈ cs
  · obtain ⟨before, after, heq, hfree⟩ := List.eq_append_cons_of_mem h
    have ih := lineList_append_lineFeed after rest
    rw [heq, List.append_assoc, List.append_assoc, List.cons_append, List.cons_append,
      lineList_append hfree, lineList_append hfree, ih, List.cons_append]
  · rw [lineList_append h, lineList_append h]
    rfl
termination_by cs.length
decreasing_by
  rw [heq, List.length_append, List.length_cons]
  omega

/-- What a text on one line starts with stays at the start of the first line. -/
theorem lineList_append_of_isLine {x : List Char} (hne : x ≠ []) (hfree : '\n' ∉ x)
    (hlast : x.getLast? ≠ some '\r') (after : List Char) :
    lineList (x ++ after) = (x ++ (lineList after).headD []) :: (lineList after).tail := by
  induction x with
  | nil => exact absurd rfl hne
  | cons c cs ih =>
      rw [List.mem_cons, not_or] at hfree
      cases cs with
      | nil =>
          have hc : c ≠ '\r' := by simpa using hlast
          rw [List.singleton_append, lineList_cons (Ne.symm hfree.1) fun h => absurd h hc]
          cases lineList after <;> rfl
      | cons d others =>
          have hlines := ih (List.cons_ne_nil d others) hfree.2 (by simpa using hlast)
          have hhead : (d :: others ++ after).head? ≠ some '\n' := by
            have hd : d ≠ '\n' := fun h => hfree.2 (h ▸ List.mem_cons_self)
            simpa using hd
          rw [List.cons_append, lineList_cons (Ne.symm hfree.1) fun _ => hhead, hlines]
          rfl

/-- The lines that a text is read as when a line feed follows. -/
def endedLines (s : String) : List String :=
  (lineList (s.toList ++ ['\n'])).map String.ofList

theorem endedLines_of_lineFree {s : String} (h : LineFree s) : endedLines s = [dropReturn s] := by
  rw [endedLines, lineList_append h]
  rfl

/-- The lines of a text that was put together from texts. -/
theorem lines_unlines_eq_flatMap (ls : List String) :
    lines (unlines ls) = ls.flatMap endedLines := by
  induction ls with
  | nil => rfl
  | cons first rest ih =>
      have htext : (unlines (first :: rest)).toList =
          first.toList ++ '\n' :: (unlines rest).toList := by
        simp [unlines]
      rw [lines, htext, lineList_append_lineFeed, List.map_append, ← lines, ih]
      rfl

/-- Lines are read back from their text, apart from carriage returns at their ends. -/
theorem lines_unlines {ls : List String} (h : ∀ l ∈ ls, LineFree l) :
    lines (unlines ls) = ls.map dropReturn := by
  rw [lines_unlines_eq_flatMap, List.map_eq_flatMap]
  exact List.flatMap_congr fun l hl => endedLines_of_lineFree (h l hl)

theorem dropReturnChars_append (cs : List Char) {ds : List Char} (h : ds ≠ []) :
    dropReturnChars (cs ++ ds) = cs ++ dropReturnChars ds := by
  induction cs with
  | nil => rfl
  | cons c rest ih =>
      obtain ⟨d, more, hmore⟩ := List.exists_cons_of_ne_nil
        (List.append_ne_nil_of_right_ne_nil rest h)
      rw [List.cons_append, hmore, dropReturnChars, ← hmore, ih, List.cons_append]

theorem length_le_dropReturnChars (cs : List Char) :
    cs.length ≤ (dropReturnChars cs).length + 1 := by
  fun_induction dropReturnChars cs with
  | case1 => simp
  | case2 => simp
  | case3 => simp
  | case4 c d more ih => simpa using ih

/-- A text that is read back as one line. -/
structure IsLine (s : String) : Prop where
  free : LineFree s
  last : s.toList.getLast? ≠ some '\r'

instance (s : String) : Decidable (IsLine s) :=
  decidable_of_iff (LineFree s ∧ s.toList.getLast? ≠ some '\r')
    ⟨fun h => ⟨h.1, h.2⟩, fun h => ⟨h.free, h.last⟩⟩

theorem IsLine.append {s t : String} (hs : IsLine s) (ht : IsLine t) : IsLine (s ++ t) where
  free := lineFree_append.mpr ⟨hs.free, ht.free⟩
  last := by
    rw [String.toList_append, List.getLast?_append]
    cases hlast : t.toList.getLast? with
    | none => exact hs.last
    | some c =>
        have hc := ht.last
        rwa [hlast] at hc

theorem IsLine.dropReturn_eq {s : String} (h : IsLine s) : dropReturn s = s := by
  apply String.toList_inj.mp
  rw [dropReturn, String.toList_ofList]
  rcases List.eq_nil_or_concat s.toList with hnil | ⟨before, c, hcs⟩
  · rw [hnil]
    rfl
  · rw [List.concat_eq_append] at hcs
    have hc : c ≠ '\r' := fun heq => h.last (by simp [hcs, heq])
    rw [hcs, dropReturnChars_append before (List.cons_ne_nil c [])]
    simp [dropReturnChars, hc]

theorem lines_unlines_of_isLine {ls : List String} (h : ∀ l ∈ ls, IsLine l) :
    lines (unlines ls) = ls := by
  rw [lines_unlines fun l hl => (h l hl).free]
  exact (List.map_congr_left fun l hl => (h l hl).dropReturn_eq).trans (List.map_id ls)

end Text

/-! ## Lines of a layout -/

namespace Layout

/-- A line of a given text in a scope. -/
def placed (indent : String) (level : Nat) (line : String) : String :=
  if line = "" then "" else Builder.indentation indent level ++ line

mutual

/-- The lines of a piece of code at a level. -/
def linesOfOne (indent : String) (level : Nat) : Layout → List String
  | .line s => [Builder.indentation indent level ++ s]
  | .continuation s => [Builder.indentation indent level ++ indent ++ s]
  | .label s => [Builder.indentation indent (level - 1) ++ s]
  | .blank => [""]
  | .text s => (Text.lines s).map (placed indent level)
  | .scope close body =>
      (Builder.indentation indent level ++ "\x7b") ::
        (linesOf indent (level + 1) body ++ [Builder.indentation indent level ++ close])

/-- The lines of pieces of code at a level. -/
def linesOf (indent : String) (level : Nat) : List Layout → List String
  | [] => []
  | first :: rest => linesOfOne indent level first ++ linesOf indent level rest

end

@[simp] theorem linesOf_nil (indent : String) (level : Nat) : linesOf indent level [] = [] := rfl

@[simp] theorem linesOf_cons (indent : String) (level : Nat) (first : Layout)
    (rest : List Layout) :
    linesOf indent level (first :: rest) =
      linesOfOne indent level first ++ linesOf indent level rest := rfl

@[simp] theorem linesOf_append (indent : String) (level : Nat) (before after : List Layout) :
    linesOf indent level (before ++ after) =
      linesOf indent level before ++ linesOf indent level after := by
  induction before with
  | nil => rfl
  | cons first rest ih => simp [ih, List.append_assoc]

theorem linesOfOne_infix_linesOf {indent : String} {level : Nat} {pieces : List Layout}
    {piece : Layout} (h : piece ∈ pieces) :
    piece.linesOfOne indent level <:+: linesOf indent level pieces := by
  obtain ⟨before, after, rfl⟩ := List.append_of_mem h
  rw [linesOf_append, linesOf_cons]
  exact ⟨linesOf indent level before, linesOf indent level after, List.append_assoc _ _ _⟩

-- At the outermost level nothing is indented.

@[simp] theorem linesOfOne_line_zero (indent s : String) :
    linesOfOne indent 0 (.line s) = [s] := by
  simp [linesOfOne, Builder.indentation]

@[simp] theorem linesOfOne_continuation_zero (indent s : String) :
    linesOfOne indent 0 (.continuation s) = [indent ++ s] := by
  simp [linesOfOne, Builder.indentation]

@[simp] theorem linesOfOne_braced_zero (indent : String) (body : List Layout) :
    linesOfOne indent 0 (braced body) = "\x7b" :: (linesOf indent 1 body ++ ["\x7d"]) := by
  simp [braced, linesOfOne, Builder.indentation]

end Layout

namespace Builder

/-- The text under construction with lines appended. -/
def appendLines (b : Builder) (ls : List String) : Builder :=
  { b with buffer := b.buffer ++ Text.unlines ls }

theorem appendLines_append (b : Builder) (ls ms : List String) :
    (b.appendLines ls).appendLines ms = b.appendLines (ls ++ ms) := by
  simp [appendLines, Text.unlines_append, String.append_assoc]

theorem line_eq (b : Builder) (s : String) :
    b.line s = b.appendLines [indentation b.indent b.level ++ s] := by
  simp [line, appendLines, Text.unlines, String.append_assoc]

theorem textLine_eq (b : Builder) (s : String) :
    b.textLine s = b.appendLines [Layout.placed b.indent b.level s] := by
  unfold textLine Layout.placed
  split
  · simp [blank, appendLines, Text.unlines]
  · exact b.line_eq s

theorem text_eq (b : Builder) (s : String) :
    b.text s = b.appendLines ((Text.lines s).map (Layout.placed b.indent b.level)) := by
  unfold text
  generalize Text.lines s = ls
  induction ls generalizing b with
  | nil => simp [appendLines, Text.unlines]
  | cons line rest ih =>
      rw [List.foldl_cons, textLine_eq, ih, List.map_cons, appendLines_append]
      rfl

mutual

theorem writeOne_eq (b : Builder) (piece : Layout) :
    b.writeOne piece = b.appendLines (piece.linesOfOne b.indent b.level) := by
  cases piece with
  | line s => exact b.line_eq s
  | continuation s =>
      simp [writeOne, continuation, appendLines, Text.unlines, Layout.linesOfOne,
        String.append_assoc]
  | label s =>
      simp [writeOne, label, appendLines, Text.unlines, Layout.linesOfOne, String.append_assoc]
  | blank => simp [writeOne, blank, appendLines, Text.unlines, Layout.linesOfOne]
  | text s => exact b.text_eq s
  | scope close body =>
      have hopen : b.openBrace =
          (b.appendLines [indentation b.indent b.level ++ "\x7b"]).deepen := by
        rw [openBrace, line_eq]
      rw [writeOne, write_eq b.openBrace body, hopen]
      simp [closeBrace, raise, deepen, line, appendLines, Text.unlines, Text.unlines_append,
        Layout.linesOfOne, String.append_assoc]

/-- Pieces of code are written by appending their lines. -/
theorem write_eq (b : Builder) (pieces : List Layout) :
    b.write pieces = b.appendLines (Layout.linesOf b.indent b.level pieces) := by
  cases pieces with
  | nil => simp [write, appendLines, Text.unlines]
  | cons first rest =>
      rw [write, writeOne_eq b first, write_eq _ rest, appendLines_append]
      rfl

end

theorem indentation_add (indent : String) (j k : Nat) :
    indentation indent (j + k) = indentation indent j ++ indentation indent k := by
  induction j with
  | zero => simp [indentation]
  | succ j ih => simp [Nat.succ_add, indentation, ih, String.append_assoc]

end Builder

namespace Layout

section Placed

variable {indent line : String}

theorem placed_of_ne {level : Nat} (h : line ≠ "") :
    placed indent level line = Builder.indentation indent level ++ line :=
  if_neg h

@[simp] theorem placed_empty (level : Nat) : placed indent level "" = "" := rfl

@[simp] theorem placed_zero (line : String) : placed indent 0 line = line := by
  unfold placed
  split
  · next h => exact h.symm
  · exact String.empty_append

/-- A line that is placed twice is placed at the sum of the levels. -/
theorem placed_placed (j k : Nat) (line : String) :
    placed indent k (placed indent j line) = placed indent (j + k) line := by
  by_cases h : line = ""
  · rw [h, placed_empty, placed_empty, placed_empty]
  · have hplaced : Builder.indentation indent j ++ line ≠ "" := by simp [h]
    rw [placed_of_ne h, placed_of_ne hplaced, placed_of_ne h, Nat.add_comm,
      Builder.indentation_add, String.append_assoc]

variable (hindent : Text.LineFree indent)

include hindent

theorem lineFree_indentation (level : Nat) : Text.LineFree (Builder.indentation indent level) := by
  induction level with
  | zero => exact (by decide : Text.LineFree "")
  | succ level ih => exact Text.lineFree_append.mpr ⟨hindent, ih⟩

variable {level : Nat}

theorem lineFree_placed (h : Text.LineFree line) : Text.LineFree (placed indent level line) := by
  unfold placed
  split
  · decide
  · exact Text.lineFree_append.mpr ⟨lineFree_indentation hindent level, h⟩

theorem isLine_placed (h : Text.IsLine line) : Text.IsLine (placed indent level line) := by
  refine ⟨lineFree_placed hindent h.free, ?_⟩
  unfold placed
  split
  · decide
  · next hne =>
      have hcs : line.toList ≠ [] := fun heq => hne (String.toList_inj.mp heq)
      rw [String.toList_append, List.getLast?_append_of_ne_nil _ hcs]
      exact h.last

end Placed

/-- The text of pieces of code is put together from their lines. -/
theorem render_eq (indent : String) (pieces : List Layout) :
    render indent pieces = Text.unlines (linesOf indent 0 pieces) := by
  rw [render, Builder.write_eq]
  simp [Builder.appendLines, Builder.new]

/-- Pieces of code that are laid out by themselves and then placed in a scope keep their
lines. -/
theorem linesOfOne_text_render {indent : String} {level : Nat} {pieces : List Layout}
    (h : ∀ l ∈ linesOf indent 0 pieces, Text.IsLine l) :
    linesOfOne indent level (.text (render indent pieces)) =
      (linesOf indent 0 pieces).map (placed indent level) := by
  rw [linesOfOne, render_eq, Text.lines_unlines_of_isLine h]

/-! ## Groups with empty lines between them -/

theorem mem_spaced {groups : List (List Layout)} {group : List Layout} {piece : Layout}
    (hgroup : group ∈ groups) (hpiece : piece ∈ group) : piece ∈ spaced groups := by
  fun_induction spaced groups with
  | case1 => cases hgroup
  | case2 other => rwa [← List.mem_singleton.mp hgroup]
  | case3 other rest _ ih =>
      rw [List.mem_append, List.mem_cons]
      rcases List.mem_cons.mp hgroup with rfl | hgroup
      · exact .inl hpiece
      · exact .inr (.inr (ih hgroup))

theorem flatten_sublist_spaced (groups : List (List Layout)) :
    groups.flatten.Sublist (spaced groups) := by
  fun_induction spaced groups with
  | case1 => exact .refl _
  | case2 group => simp
  | case3 group rest hrest ih => exact (List.Sublist.refl group).append (ih.cons _)

theorem linesOf_sublist {indent : String} {level : Nat} {before after : List Layout}
    (h : before.Sublist after) :
    (linesOf indent level before).Sublist (linesOf indent level after) := by
  induction h with
  | slnil => exact .refl _
  | cons piece _ ih => exact ih.trans (List.sublist_append_right _ _)
  | cons_cons piece _ ih => exact (List.Sublist.refl _).append ih

theorem mem_linesOf_spaced {indent : String} {level : Nat} {groups : List (List Layout)}
    {line : String} (h : line ∈ linesOf indent level (spaced groups)) :
    line = "" ∨ ∃ group ∈ groups, line ∈ linesOf indent level group := by
  fun_induction spaced groups with
  | case1 => cases h
  | case2 group => exact Or.inr ⟨group, List.mem_cons_self, h⟩
  | case3 group rest hrest ih =>
      simp only [linesOf_append, linesOf_cons, linesOfOne, List.mem_append,
        List.mem_singleton] at h
      rcases h with h | rfl | h
      · exact Or.inr ⟨group, List.mem_cons_self, h⟩
      · exact Or.inl rfl
      · rcases ih h with hblank | ⟨other, hother, hmem⟩
        · exact Or.inl hblank
        · exact Or.inr ⟨other, List.mem_cons_of_mem group hother, hmem⟩

/-- What is read off spaced groups is what is read off the groups. -/
theorem filterMap_linesOf_spaced {indent : String} {level : Nat} {read : String → Option String}
    (hblank : read "" = none) (groups : List (List Layout)) :
    (linesOf indent level (spaced groups)).filterMap read =
      groups.flatMap fun group => (linesOf indent level group).filterMap read := by
  fun_induction spaced groups with
  | case1 => rfl
  | case2 group => simp
  | case3 group rest hrest ih => simp [linesOfOne, hblank, ih]

end Layout

end SdkHeaders
