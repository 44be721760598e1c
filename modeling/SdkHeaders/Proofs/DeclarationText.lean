import Mathlib.Data.List.Basic
import SdkHeaders.Proofs.LineBreaks

/-!
# Methods in the text of a declaration

The signatures of methods are read line by line off the text of a declaration.

Main results:

- Definitions `pureVirtuals` and `overrides` read the methods that a declaration asks for and
  those that it defines.
- Theorem `Declaration.Legible.readBody_eq`: what is read off a declaration is what is read off
  its members.
- Theorems `Contract.pureVirtuals_members` and `Contract.overrides_members` say what is read off
  the members of an interface and of an implementation.
-/

namespace SdkHeaders

open Header Text

/-! ## Reading declarations -/

/-- What stands on a line between two texts. -/
def between (before after line : String) : Option String :=
  ((line.toList.dropPrefix? before.toList).bind fun rest =>
    rest.dropSuffix? after.toList).map String.ofList

/-- The lines inside the braces of a declaration, up to its end. -/
def bodyLines (text : String) : List String :=
  ((lines text).dropWhile (· ≠ "\x7b")).drop 1

/-- What can be read off the lines of a declaration that are one level deep. -/
def readBody (indent : String) (read : String → Option String) (text : String) : List String :=
  (bodyLines text).filterMap fun line => (between indent "" line).bind read

/-- The signature on a line that asks for a method. -/
def pureVirtual? (line : String) : Option String :=
  between "virtual " " = 0;" line

/-- The signature on the first line of a method definition; destructors are left out. -/
def override? (line : String) : Option String :=
  (between "" " override" line).filter fun s => s.toList.head? ≠ some '~'

/-- The signatures of the methods that a declaration asks for. -/
def pureVirtuals (indent text : String) : List String :=
  readBody indent pureVirtual? text

/-- The signatures of the methods with which a declaration implements others. -/
def overrides (indent text : String) : List String :=
  readBody indent override? text

theorem between_eq_some_iff {before after line s : String} :
    between before after line = some s ↔ line = before ++ s ++ after := by
  unfold between
  rw [Option.map_eq_some_iff]
  constructor
  · rintro ⟨cs, hcs, rfl⟩
    obtain ⟨rest, hrest, hcs⟩ := Option.bind_eq_some_iff.mp hcs
    obtain ⟨start, hline, hstart⟩ := List.dropPrefix?_eq_some_iff.mp hrest
    obtain ⟨last, rfl, hlast⟩ := List.dropSuffix?_eq_some_iff.mp hcs
    rw [beq_iff_eq] at hstart hlast
    apply String.toList_inj.mp
    simp [hline, hstart, hlast]
  · rintro rfl
    refine ⟨s.toList, ?_, String.ofList_toList⟩
    refine Option.bind_eq_some_iff.mpr ⟨s.toList ++ after.toList, ?_, ?_⟩
    · exact List.dropPrefix?_eq_some_iff.mpr ⟨before.toList, by simp, by simp⟩
    · exact List.dropSuffix?_eq_some_iff.mpr ⟨after.toList, rfl, by simp⟩

theorem length_of_pureVirtual? {line s : String} (h : pureVirtual? line = some s) :
    8 < line.toList.length := by
  rw [between_eq_some_iff.mp h]
  simp

theorem length_of_override? {line s : String} (h : override? line = some s) :
    8 < line.toList.length := by
  obtain ⟨h, -⟩ := Option.filter_eq_some_iff.mp h
  rw [between_eq_some_iff.mp h]
  simp

/-! ## Lines of a declaration -/

theorem bodyLines_unlines {head body : List String}
    (hhead : ∀ l ∈ head, LineFree l ∧ 2 < l.toList.length) (hbody : ∀ l ∈ body, IsLine l) :
    bodyLines (unlines (head ++ "\x7b" :: body)) = body := by
  have hfree : ∀ l ∈ head ++ "\x7b" :: body, LineFree l := by
    simp only [List.mem_append, List.mem_cons]
    rintro l (hl | rfl | hl)
    · exact (hhead l hl).1
    · decide
    · exact (hbody l hl).free
  have hskipped : ∀ l ∈ head.map dropReturn, decide (l ≠ "\x7b") = true := by
    intro l hl
    obtain ⟨long, hlong, rfl⟩ := List.mem_map.mp hl
    -- What is left of the line is longer than a brace, even if it ends in a carriage return.
    have hlength := length_le_dropReturnChars long.toList
    have hshort := (hhead long hlong).2
    rw [decide_eq_true_eq]
    intro heq
    have hone : (dropReturnChars long.toList).length = 1 := by
      rw [← String.toList_ofList (l := dropReturnChars long.toList), ← dropReturn, heq]
      rfl
    omega
  have hsame : body.map dropReturn = body :=
    (List.map_congr_left fun l hl => (hbody l hl).dropReturn_eq).trans (List.map_id body)
  have hbrace : dropReturn "\x7b" = "\x7b" := by decide
  rw [bodyLines, lines_unlines hfree, List.map_append, List.map_cons, hsame, hbrace,
    List.dropWhile_append_of_pos hskipped]
  simp

section Reading

variable {read : String → Option String}
  (hread : ∀ line s, read line = some s → 8 < line.toList.length)

include hread

/-- Nothing is read off a short line. -/
theorem between_short {indent line : String} (hline : line.toList.length ≤ 8) :
    (between indent "" line).bind read = none := by
  refine Option.eq_none_iff_forall_ne_some.mpr fun s hs => ?_
  obtain ⟨rest, hrest, hs⟩ := Option.bind_eq_some_iff.mp hs
  have hlength := congrArg (fun line => line.toList.length) (between_eq_some_iff.mp hrest)
  have hlong := hread rest s hs
  simp at hlength
  omega

/-- A line in a scope is read as it is outside. -/
theorem between_placed (indent line : String) :
    (between indent "" (Layout.placed indent 1 line)).bind read = read line := by
  unfold Layout.placed
  split
  · next hempty =>
      have hnone : read "" = none := Option.eq_none_iff_forall_ne_some.mpr fun s hs => by
        simpa using hread "" s hs
      rw [hempty, hnone]
      exact between_short hread (by decide)
  · have hline : between indent "" (Builder.indentation indent 1 ++ line) = some line := by
      rw [between_eq_some_iff]
      simp [Builder.indentation]
    rw [hline, Option.bind_some]

end Reading

namespace Header

/-- A declaration is legible if its lines are read back as they are and its head is set apart
from its body. -/
structure Declaration.Legible (indent : String) (d : Declaration) : Prop where
  head : ∀ line ∈ Layout.linesOf indent 0 d.headLayout,
    LineFree line ∧ 2 < line.toList.length
  members : ∀ m ∈ d.members, ∀ line ∈ Layout.linesOf indent 0 m.layout, IsLine line

namespace Declaration

/-- The lines in the braces of a declaration. -/
def innerLines (indent : String) (d : Declaration) : List String :=
  Layout.linesOf indent 1 (d.accessLabel ++ d.memberLayout indent) ++ ["\x7d;"]

theorem linesOf_layout (indent : String) (d : Declaration) :
    Layout.linesOf indent 0 (d.layout indent) =
      Layout.linesOf indent 0 d.headLayout ++ "\x7b" :: d.innerLines indent := by
  simp [layout, innerLines, Layout.linesOfOne, Builder.indentation]

variable {indent : String} {d : Declaration}

theorem Legible.isLine_inner (h : d.Legible indent) (hindent : LineFree indent) :
    ∀ line ∈ d.innerLines indent, IsLine line := by
  intro line hline
  simp only [innerLines, Layout.linesOf_append, List.mem_append, List.mem_singleton] at hline
  rcases hline with (hlabel | hmember) | rfl
  · have hpublic : line = "public:" := by
      unfold accessLabel at hlabel
      split at hlabel
      · simpa [Layout.linesOfOne, Builder.indentation] using hlabel
      · cases hlabel
    subst hpublic
    exact ⟨by decide, by decide⟩
  · rcases Layout.mem_linesOf_spaced hmember with rfl | ⟨group, hgroup, hmem⟩
    · exact ⟨by decide, by decide⟩
    · obtain ⟨m, hm, rfl⟩ := List.mem_map.mp hgroup
      rw [Layout.linesOf_cons, Layout.linesOfOne_text_render (h.members m hm)] at hmem
      simp only [Layout.linesOf_nil, List.append_nil, List.mem_map] at hmem
      obtain ⟨inner, hinner, rfl⟩ := hmem
      exact Layout.isLine_placed hindent (h.members m hm inner hinner)
  · exact ⟨by decide, by decide⟩

/-- What is read off a legible declaration is what is read off its members. -/
theorem Legible.readBody_eq (h : d.Legible indent) (hindent : LineFree indent)
    {read : String → Option String}
    (hread : ∀ line s, read line = some s → 8 < line.toList.length) :
    readBody indent read (Layout.render indent (d.layout indent)) =
      d.members.flatMap fun m => (Layout.linesOf indent 0 m.layout).filterMap read := by
  have hlabel : (Layout.linesOf indent 1 d.accessLabel).filterMap
      (fun line => (between indent "" line).bind read) = [] := by
    have hpublic : (between indent "" "public:").bind read = none :=
      between_short hread (by decide)
    unfold accessLabel
    split
    · simp [Layout.linesOfOne, Builder.indentation, hpublic]
    · rfl
  have hclose : (between indent "" "\x7d;").bind read = none :=
    between_short hread (by decide)
  have hmembers : ∀ m ∈ d.members, (Layout.linesOf indent 1
      [.text (Layout.render indent m.layout)]).filterMap
        (fun line => (between indent "" line).bind read) =
          (Layout.linesOf indent 0 m.layout).filterMap read := by
    intro m hm
    rw [Layout.linesOf_cons, Layout.linesOfOne_text_render (h.members m hm)]
    simp only [Layout.linesOf_nil, List.append_nil, List.filterMap_map]
    exact List.filterMap_congr fun line _ => between_placed hread indent line
  rw [readBody, Layout.render_eq, linesOf_layout,
    bodyLines_unlines h.head (h.isLine_inner hindent), innerLines, Layout.linesOf_append,
    List.filterMap_append, List.filterMap_append, hlabel, memberLayout,
    Layout.filterMap_linesOf_spaced (between_short hread (by decide)), List.flatMap_map]
  simp only [List.filterMap_cons, hclose, List.filterMap_nil, List.append_nil, List.nil_append]
  exact List.flatMap_congr hmembers

end Declaration

/-! ## Lines of members -/

theorem getLast?_append {s t : String} {c : Char} (h : t.toList.getLast? = some c) :
    (s ++ t).toList.getLast? = some c := by
  rw [String.toList_append, List.getLast?_append, h, Option.some_or]

/-- Statements end in a semicolon. -/
theorem Statement.layout_eq (s : Statement) :
    s.layout = .blank ∨ ∃ line, s.layout = .line line ∧ line.toList.getLast? = some ';' := by
  cases s with
  | blank => exact Or.inl rfl
  | takeBaseUrl => exact Or.inr ⟨_, rfl, by decide⟩
  | _ => exact Or.inr ⟨_, rfl, getLast?_append rfl⟩

/-- The lines of a method body are blank or end in a semicolon. -/
theorem mem_linesOf_body {indent : String} {level : Nat} {body : List Statement} {line : String}
    (h : line ∈ Layout.linesOf indent level (body.map Statement.layout)) :
    line = "" ∨ ∃ s ∈ body, ∃ t, s.layout = .line t ∧ t.toList.getLast? = some ';' ∧
      line = Builder.indentation indent level ++ t := by
  induction body with
  | nil => cases h
  | cons s rest ih =>
      rw [List.map_cons, Layout.linesOf_cons, List.mem_append] at h
      rcases h with hfirst | hrest
      · rcases s.layout_eq with hblank | ⟨t, ht, hlast⟩
        · rw [hblank] at hfirst
          exact Or.inl (List.mem_singleton.mp hfirst)
        · rw [ht] at hfirst
          exact Or.inr ⟨s, List.mem_cons_self, t, ht, hlast, List.mem_singleton.mp hfirst⟩
      · rcases ih hrest with hblank | ⟨other, hother, hline⟩
        · exact Or.inl hblank
        · exact Or.inr ⟨other, List.mem_cons_of_mem s hother, hline⟩

theorem override?_eq_none {line : String} {c : Char} (hline : line.toList.getLast? = some c)
    (hc : c ≠ 'e') : override? line = none := by
  refine Option.eq_none_iff_forall_ne_some.mpr fun s hs => hc ?_
  obtain ⟨hs, -⟩ := Option.filter_eq_some_iff.mp hs
  rw [between_eq_some_iff.mp hs] at hline
  simpa using hline.symm

theorem override?_signature {s : Signature} (h : s.text.toList.head? ≠ some '~') :
    override? (s.text ++ " override") = some s.text := by
  refine Option.filter_eq_some_iff.mpr ⟨between_eq_some_iff.mpr (by simp), ?_⟩
  simpa using h

theorem override?_destructor (name : String) :
    override? ("~" ++ name ++ "() noexcept override") = none := by
  refine Option.eq_none_iff_forall_ne_some.mpr fun s hs => ?_
  obtain ⟨hs, hstart⟩ := Option.filter_eq_some_iff.mp hs
  have hline := congrArg String.toList (between_eq_some_iff.mp hs)
  simp only [String.toList_append] at hline
  cases hcs : s.toList with
  | nil => simp [hcs] at hline
  | cons c rest =>
      rw [hcs] at hline
      have hc : '~' = c := (List.cons.inj hline).1
      simp [hcs, ← hc] at hstart

theorem pureVirtual?_signature (s : Signature) :
    pureVirtual? ("virtual " ++ s.text ++ " = 0;") = some s.text :=
  between_eq_some_iff.mpr rfl

theorem pureVirtual?_destructor (name : String) :
    pureVirtual? ("virtual ~" ++ name ++ "() noexcept = default;") = none := by
  refine Option.eq_none_iff_forall_ne_some.mpr fun s hs => ?_
  -- The two texts start alike and differ at their ends.
  have hline := congrArg (fun line => line.toList.reverse) (between_eq_some_iff.mp hs)
  simp at hline

namespace Contract

variable {contract : Contract} {name interface indent : String}

/-- The lines of an interface ask for the methods of the contract. -/
theorem pureVirtuals_members (contract : Contract) (name indent : String) :
    ((contract.interfaceDeclaration name).members.flatMap fun m =>
      (Layout.linesOf indent 0 m.layout).filterMap pureVirtual?) =
        contract.methods.map fun m => m.signature.text := by
  have hprototypes : ∀ ms : List Method,
      (Layout.linesOf indent 0 (Member.prototypes (ms.map Method.signature)).layout).filterMap
        pureVirtual? = ms.map fun m => m.signature.text := by
    intro ms
    induction ms with
    | nil => rfl
    | cons m rest ih =>
        simp only [Member.layout, List.map_cons, Member.prototypeLine, Layout.linesOf_cons,
          Layout.linesOfOne_line_zero, List.filterMap_append] at ih ⊢
        rw [ih]
        simp [pureVirtual?_signature]
  unfold interfaceDeclaration
  split
  · next hempty =>
      simp [Member.layout, pureVirtual?_destructor, List.isEmpty_iff.mp hempty]
  · simpa [Member.layout, pureVirtual?_destructor] using hprototypes contract.methods

theorem overrides_braced (indent : String) (body : List Layout) :
    (Layout.linesOfOne indent 0 (Layout.braced body)).filterMap override? =
      (Layout.linesOf indent 1 body).filterMap override? := by
  have hopen : override? "\x7b" = none := rfl
  have hclose : override? "\x7d" = none := rfl
  simp [hopen, hclose]

/-- The lines of a method read as the definition of its signature. -/
theorem overrides_method {m : Method} (h : m.Legible) (indent : String) :
    (Layout.linesOf indent 0 (Member.method m).layout).filterMap override? =
      [m.signature.text] := by
  have hbody : (Layout.linesOf indent 1 (m.body.map Statement.layout)).filterMap override? =
      [] := by
    refine List.filterMap_eq_nil_iff.mpr fun line hline => ?_
    rcases mem_linesOf_body hline with rfl | ⟨s, -, t, -, hlast, rfl⟩
    · rfl
    · exact override?_eq_none (getLast?_append hlast) (by decide)
  simp [Member.layout, -Layout.linesOfOne_braced_zero, overrides_braced, hbody,
    override?_signature h.start]

/-- Nothing is read off the lines of a constructor. -/
theorem overrides_constructor (name indent : String) (parameters : List Parameter)
    (initializer : Initializer) :
    (Layout.linesOf indent 0
      (Member.constructor name parameters initializer).layout).filterMap override? = [] := by
  have hhead : override? ("explicit " ++ name ++ parameterText parameters ++ " noexcept") =
      none :=
    override?_eq_none (getLast?_append rfl) (by decide : 't' ≠ 'e')
  have hinitializer : override? (indent ++ (": " ++ initializer.text)) = none := by
    have hlast : initializer.text.toList.getLast? = some '\x7d' := getLast?_append rfl
    exact override?_eq_none (getLast?_append (getLast?_append hlast)) (by decide)
  simp [Member.layout, -Layout.linesOfOne_braced_zero, overrides_braced, hhead, hinitializer]

/-- The lines of an implementation define the methods of the contract. -/
theorem overrides_members (hmethods : ∀ m ∈ contract.methods, m.Legible)
    (name interface indent : String) :
    ((contract.implementationDeclaration name interface).members.flatMap fun m =>
      (Layout.linesOf indent 0 m.layout).filterMap override?) =
        contract.methods.map fun m => m.signature.text := by
  have hconstructors : (contract.constructors.map fun parts =>
      Member.constructor name parts.1 parts.2).flatMap
        (fun m => (Layout.linesOf indent 0 m.layout).filterMap override?) = [] := by
    rw [List.flatMap_map, List.flatMap_eq_nil_iff]
    exact fun parts _ => overrides_constructor name indent parts.1 parts.2
  have hdestructor : (Layout.linesOf indent 0 (Member.destructor name).layout).filterMap
      override? = [] := by
    simp [Member.layout, -Layout.linesOfOne_braced_zero, overrides_braced, override?_destructor]
  have hdefinitions : (contract.methods.map Member.method).flatMap
      (fun m => (Layout.linesOf indent 0 m.layout).filterMap override?) =
        contract.methods.map fun m => m.signature.text := by
    rw [List.flatMap_map, List.map_eq_flatMap]
    exact List.flatMap_congr fun m hm => overrides_method (hmethods m hm) indent
  rw [implementationDeclaration, List.flatMap_append, hconstructors, List.nil_append,
    List.flatMap_cons, hdestructor, List.nil_append, hdefinitions]

/-! ## Legible declarations -/

theorem isLine_append {s t : String} {c : Char} (hs : LineFree s) (ht : LineFree t)
    (hlast : t.toList.getLast? = some c) (hc : c ≠ '\r') : IsLine (s ++ t) :=
  ⟨lineFree_append.mpr ⟨hs, ht⟩, by rw [getLast?_append hlast]; simpa using hc⟩

theorem isLine_braced {body : List Layout}
    (h : ∀ line ∈ Layout.linesOf indent 1 body, IsLine line) :
    ∀ line ∈ Layout.linesOfOne indent 0 (Layout.braced body), IsLine line := by
  have hopen : IsLine "\x7b" := ⟨by decide, by decide⟩
  have hclose : IsLine "\x7d" := ⟨by decide, by decide⟩
  rw [Layout.linesOfOne_braced_zero, List.forall_mem_cons, List.forall_mem_append,
    List.forall_mem_singleton]
  exact ⟨hopen, h, hclose⟩

theorem isLine_constructor {parameters : List Parameter} {initializer : Initializer}
    (hname : LineFree name) (hparameters : LineFree (parameterText parameters))
    (hinitializer : LineFree initializer.text) (hindent : LineFree indent) :
    ∀ line ∈ Layout.linesOf indent 0 (Member.constructor name parameters initializer).layout,
      IsLine line := by
  have hhead : IsLine ("explicit " ++ name ++ parameterText parameters ++ " noexcept") := by
    have hstart : LineFree ("explicit " ++ name ++ parameterText parameters) := by
      simp [LineFree, hname, hparameters]
    exact isLine_append hstart (by decide) rfl (by decide : 't' ≠ '\r')
  have hcontinued : IsLine (indent ++ (": " ++ initializer.text)) := by
    have hlast : initializer.text.toList.getLast? = some '\x7d' := getLast?_append rfl
    exact isLine_append hindent (lineFree_append.mpr ⟨by decide, hinitializer⟩)
      (getLast?_append hlast) (by decide)
  simp only [Member.layout, Layout.linesOf_cons, Layout.linesOf_nil, Layout.linesOfOne_line_zero,
    Layout.linesOfOne_continuation_zero, List.append_nil, List.forall_mem_append,
    List.forall_mem_singleton]
  exact ⟨hhead, hcontinued, isLine_braced (List.forall_mem_nil _)⟩

theorem isLine_destructor (hname : LineFree name) (indent : String) :
    ∀ line ∈ Layout.linesOf indent 0 (Member.destructor name).layout, IsLine line := by
  have hhead : IsLine ("~" ++ name ++ "() noexcept override") :=
    isLine_append (lineFree_append.mpr ⟨by decide, hname⟩) (by decide) rfl
      (by decide : 'e' ≠ '\r')
  simp only [Member.layout, Layout.linesOf_cons, Layout.linesOf_nil, Layout.linesOfOne_line_zero,
    List.append_nil, List.forall_mem_append, List.forall_mem_singleton]
  exact ⟨hhead, isLine_braced (List.forall_mem_nil _)⟩

theorem isLine_method {m : Method} (h : m.Legible) (hindent : LineFree indent) :
    ∀ line ∈ Layout.linesOf indent 0 (Member.method m).layout, IsLine line := by
  have hhead : IsLine (m.signature.text ++ " override") :=
    isLine_append h.signature (by decide) rfl (by decide : 'e' ≠ '\r')
  have hbody : ∀ line ∈ Layout.linesOf indent 1 (m.body.map Statement.layout), IsLine line := by
    intro line hline
    rcases mem_linesOf_body hline with rfl | ⟨s, hs, t, ht, hlast, rfl⟩
    · exact ⟨by decide, by decide⟩
    · exact isLine_append (Layout.lineFree_indentation hindent _) (h.body s hs t ht) hlast
        (by decide)
  simp only [Member.layout, Layout.linesOf_cons, Layout.linesOf_nil, Layout.linesOfOne_line_zero,
    List.append_nil, List.forall_mem_append, List.forall_mem_singleton]
  exact ⟨hhead, isLine_braced hbody⟩

theorem isLine_virtualDestructor (hname : LineFree name) (indent : String) :
    ∀ line ∈ Layout.linesOf indent 0 (Member.virtualDestructor name).layout, IsLine line := by
  intro line hline
  obtain rfl := List.mem_singleton.mp hline
  rw [Builder.indentation, String.empty_append]
  exact isLine_append (lineFree_append.mpr ⟨by decide, hname⟩) (by decide) rfl
    (by decide : ';' ≠ '\r')

theorem isLine_prototypes {signatures : List Signature}
    (h : ∀ s ∈ signatures, LineFree s.text) (indent : String) :
    ∀ line ∈ Layout.linesOf indent 0 (Member.prototypes signatures).layout, IsLine line := by
  intro line hline
  induction signatures with
  | nil => cases hline
  | cons s rest ih =>
      rw [List.forall_mem_cons] at h
      rcases List.mem_cons.mp hline with rfl | hrest
      · rw [Builder.indentation, String.empty_append]
        exact isLine_append (lineFree_append.mpr ⟨by decide, h.1⟩) (by decide) rfl
          (by decide : ';' ≠ '\r')
      · exact ih h.2 hrest

theorem head_legible {d : Declaration} (hsummary : LineFree d.summary)
    (hsignature : LineFree d.signature ∧ 2 < d.signature.toList.length)
    (hbases : ∃ rest, d.bases.join "public " ", " = "public " ++ rest ∧ LineFree rest)
    (hindent : LineFree indent) :
    ∀ line ∈ Layout.linesOf indent 0 d.headLayout, LineFree line ∧ 2 < line.toList.length := by
  obtain ⟨rest, hjoin, hrest⟩ := hbases
  intro line hline
  simp only [Declaration.headLayout, summaryLines, Layout.linesOf_cons, Layout.linesOfOne,
    Builder.indentation, String.empty_append, List.cons_append, List.nil_append,
    List.mem_cons] at hline
  rcases hline with rfl | rfl | rfl | rfl | hbase
  · decide
  · simp [LineFree, hsummary]
  · decide
  · exact hsignature
  · unfold Declaration.baseClause at hbase
    split at hbase
    · cases hbase
    · rw [hjoin] at hbase
      simp only [Layout.linesOf_cons, Layout.linesOf_nil, Layout.linesOfOne, Builder.indentation,
        String.empty_append, List.append_nil, List.mem_singleton] at hbase
      subst hbase
      simp only [LineFree, String.toList_append, List.length_append]
      refine ⟨by simp [hindent, hrest], ?_⟩
      have hpublic : "public ".toList.length = 7 := rfl
      omega

/-- The interface of a legible contract is legible. -/
theorem Legible.interfaceDeclaration (h : contract.Legible) (hname : LineFree name)
    (hindent : LineFree indent) : (contract.interfaceDeclaration name).Legible indent where
  head := by
    refine head_legible ?_ ?_ ⟨_, rfl, h.frameworkInterface⟩ hindent
    · exact lineFree_append.mpr ⟨by decide, h.summary.lowerFirst⟩
    · have hsignature : (contract.interfaceDeclaration name).signature = "struct " ++ name := rfl
      rw [hsignature]
      exact ⟨lineFree_append.mpr ⟨by decide, hname⟩, by simp⟩
  members := by
    have hsignatures : ∀ s ∈ contract.methods.map Method.signature, LineFree s.text := by
      simpa using fun m hm => (h.methods m hm).signature
    unfold Contract.interfaceDeclaration
    split
    · simpa using isLine_virtualDestructor hname indent
    · simpa using And.intro (isLine_virtualDestructor hname indent)
        (isLine_prototypes hsignatures indent)

/-- The implementation of a legible contract is legible. -/
theorem Legible.implementationDeclaration (h : contract.Legible) (hname : LineFree name)
    (hinterface : LineFree interface) (hindent : LineFree indent) :
    (contract.implementationDeclaration name interface).Legible indent where
  head := by
    have hsignature : (contract.implementationDeclaration name interface).signature =
        "class " ++ name ++ " final" := rfl
    have hbases : (contract.implementationDeclaration name interface).bases.join "public " ", " =
        "public " ++ (interface ++ ", " ++ ("public " ++ contract.frameworkClass.text)) := by
      rw [String.append_assoc, ← String.append_assoc, ← String.append_assoc]
      rfl
    refine head_legible h.summary ?_ ⟨_, hbases, ?_⟩ hindent
    · rw [hsignature]
      exact ⟨by simp [LineFree, hname], by simp⟩
    · simp [LineFree, hinterface, h.frameworkClass]
  members := by
    simp only [Contract.implementationDeclaration, List.forall_mem_append, List.forall_mem_cons,
      List.forall_mem_map]
    refine ⟨?_, isLine_destructor hname indent, ?_⟩
    · intro parts hparts
      obtain ⟨hparameters, hinitializer⟩ := h.constructors parts hparts
      exact isLine_constructor hname hparameters hinitializer hindent
    · exact fun m hm => isLine_method (h.methods m hm) hindent

end Contract

end Header

end SdkHeaders
