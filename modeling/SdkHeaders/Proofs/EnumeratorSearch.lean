import SdkHeaders.Proofs.Enumerators
import SdkHeaders.Proofs.LiteralText
import SdkHeaders.Proofs.ObjectReading

/-!
# Searches for enumerators

What a generated function does that finds the enumerator of a text, when its lines are read as code:
a chain of comparisons, each with a block that assigns an enumerator and ends the function.

Main results:

- Definition `searchFor` runs the lines of a function on a trimmed text, and tells what it assigns
  and answers.
- Theorem `Header.FreeFunction.searchFor_parseEnum`: a search finds the first arm of the text.
- Theorem `Header.memberLines_enumeratorLines` tells the lines of enumerators.
- Structures `SearchesEnumerators` and `ListsEnumerators` say that a function finds the enumerators
  of an enumeration by the names of its members, and that lines list them.
- Theorem `SourceFile.searchesEnumerators_of_load`: the header of an enumeration of a loaded model
  holds such lines and such a function.
-/

namespace SdkHeaders

open Header Text

/-! ## Lines of code -/

/-- What a line of a search says, apart from its indentation. -/
inductive SearchLine where
  /-- Nothing. -/
  | blank
  /-- A block starts. -/
  | opening
  /-- A block ends. -/
  | closing
  /-- The given text is trimmed. -/
  | trim
  /-- The block behind the line is entered if the trimmed text is that of a literal, and no block
  of the chain before was entered, if the line goes on with a chain. -/
  | compare (chained : Bool) (literal : String)
  /-- The object becomes an enumerator. -/
  | assign (enumerator : String)
  /-- The function ends with an answer. -/
  | answer (result : Bool)
  /-- Something else. -/
  | other (s : String)
  deriving DecidableEq, Repr

/-- Nothing is found between two texts in one that starts otherwise than the first. -/
theorem between_eq_none {before after s : String} {b c : Char}
    (hbefore : before.toList.head? = some b) (hs : s.toList.head? = some c) (hne : b ≠ c) :
    between before after s = none := by
  rw [Option.eq_none_iff_forall_not_mem]
  intro middle hmiddle
  have hsplit := between_eq_some_iff.mp hmiddle
  rw [hsplit, String.append_assoc, String.toList_append, List.head?_append, hbefore,
    Option.some_or] at hs
  exact hne (Option.some.inj hs)

namespace SearchLine

/-- The lines that say the same wherever they stand. -/
def fixed : List (String × SearchLine) :=
  [("", .blank), ("\x7b", .opening), ("\x7d", .closing),
    ("const auto trimmedValue\x7b Utils::TrimString(value) \x7d;", .trim),
    ("return true;", .answer true), ("return false;", .answer false)]

/-- What a line without indentation says. -/
def ofText (s : String) : SearchLine :=
  match between "if (trimmedValue == L\"" "\")" s, between "else if (trimmedValue == L\"" "\")" s,
    between "object = " ";" s with
  | some literal, _, _ => .compare false literal
  | none, some literal, _ => .compare true literal
  | none, none, some enumerator => .assign enumerator
  | none, none, none => (fixed.lookup s).getD (.other s)

/-- What a line says. -/
def read (line : String) : SearchLine :=
  .ofText (unindented line)

theorem ofText_if (literal : String) :
    ofText ("if" ++ " (trimmedValue == " ++ Literal.wide literal ++ ")") =
      .compare false literal := by
  have hbetween : between "if (trimmedValue == L\"" "\")"
      ("if" ++ " (trimmedValue == " ++ Literal.wide literal ++ ")") = some literal := by
    rw [between_eq_some_iff]
    apply String.toList_inj.mp
    simp [Literal.wide]
  rw [ofText, hbetween]

theorem ofText_elseIf (literal : String) :
    ofText ("else if" ++ " (trimmedValue == " ++ Literal.wide literal ++ ")") =
      .compare true literal := by
  have hfirst : between "if (trimmedValue == L\"" "\")"
      ("else if" ++ " (trimmedValue == " ++ Literal.wide literal ++ ")") = none :=
    between_eq_none (by decide) (by simp) (by decide : 'i' ≠ 'e')
  have hbetween : between "else if (trimmedValue == L\"" "\")"
      ("else if" ++ " (trimmedValue == " ++ Literal.wide literal ++ ")") = some literal := by
    rw [between_eq_some_iff]
    apply String.toList_inj.mp
    simp [Literal.wide]
  rw [ofText, hfirst, hbetween]

theorem ofText_assign (enumerator : String) :
    ofText ("object = " ++ enumerator ++ ";") = .assign enumerator := by
  have hfirst : between "if (trimmedValue == L\"" "\")" ("object = " ++ enumerator ++ ";") = none :=
    between_eq_none (by decide) (by simp) (by decide : 'i' ≠ 'o')
  have hnext : between "else if (trimmedValue == L\"" "\")" ("object = " ++ enumerator ++ ";") =
      none := between_eq_none (by decide) (by simp) (by decide : 'e' ≠ 'o')
  have hbetween : between "object = " ";" ("object = " ++ enumerator ++ ";") = some enumerator :=
    between_eq_some_iff.mpr rfl
  rw [ofText, hfirst, hnext, hbetween]

end SearchLine

/-! ## Running a search -/

/-- What happens to the next line of a search. -/
inductive SearchMode where
  /-- It is carried out.  If a block of a chain ended before, it may go on with the chain, and it
  matters whether a block of the chain was entered. -/
  | running (chain : Option Bool)
  /-- It has to start a block, which is entered or not; a block of its chain may have been entered
  before. -/
  | before (enter taken : Bool)
  /-- It is carried out, in a block that was entered. -/
  | inside
  /-- It is passed over, in a block that was not entered. -/
  | skipping (taken : Bool)
  /-- It does not matter: the function has ended. -/
  | ended (result : Bool)
  /-- The lines are no code. -/
  | stuck
  deriving DecidableEq, Repr

/-- How far a search has come. -/
structure Search where
  /-- The trimmed text, once it is there. -/
  trimmed : Option String
  /-- The enumerator that was assigned to the object, if one was. -/
  object : Option String
  /-- What happens to the next line. -/
  mode : SearchMode
  deriving DecidableEq, Repr

namespace Search

/-- No line is carried out yet. -/
def start : Search :=
  ⟨none, none, .running none⟩

/-- Compare the trimmed text to a literal, which has to denote the text between its quotes. -/
def compare (p : Search) (taken : Bool) (literal : String) : Search :=
  match p.trimmed with
  | some s =>
      if FreeOf Literal.specials literal then
        { p with mode := .before (!taken && s = literal) taken }
      else { p with mode := .stuck }
  | none => { p with mode := .stuck }

/-- Carry out a line, when trimming yields the given text. -/
def step (s : String) (p : Search) (line : SearchLine) : Search :=
  match p.mode, line with
  | .running _, .blank => p
  | .running _, .trim => { p with trimmed := some s, mode := .running none }
  | .running _, .compare false literal => p.compare false literal
  | .running (some taken), .compare true literal => p.compare taken literal
  | .running _, .assign enumerator => { p with object := some enumerator, mode := .running none }
  | .running _, .answer result => { p with mode := .ended result }
  | .before true _, .opening => { p with mode := .inside }
  | .before false taken, .opening => { p with mode := .skipping taken }
  | .inside, .blank => p
  | .inside, .assign enumerator => { p with object := some enumerator }
  | .inside, .answer result => { p with mode := .ended result }
  | .inside, .closing => { p with mode := .running (some true) }
  | .skipping _, .opening => { p with mode := .stuck }
  | .skipping taken, .closing => { p with mode := .running (some taken) }
  | .skipping _, _ => p
  | .ended _, _ => p
  | _, _ => { p with mode := .stuck }

/-- Carry out lines one after the other. -/
def run (s : String) (p : Search) (code : List SearchLine) : Search :=
  code.foldl (step s) p

theorem run_append (s : String) (p : Search) (before after : List SearchLine) :
    p.run s (before ++ after) = (p.run s before).run s after :=
  List.foldl_append

@[simp] theorem run_ended (s : String) (trimmed object : Option String) (result : Bool)
    (code : List SearchLine) :
    (⟨trimmed, object, .ended result⟩ : Search).run s code = ⟨trimmed, object, .ended result⟩ := by
  induction code with
  | nil => rfl
  | cons line rest ih => exact ih

end Search

/-- What a search assigns and answers on a trimmed text, read off its lines: the first one is its
signature, and a function that does not answer has no result. -/
def searchFor (s : String) : List String → Option (Option String × Bool)
  | _ :: "\x7b" :: body =>
      let p := Search.start.run s (body.map SearchLine.read)
      match p.mode with
      | .ended result => some (p.object, result)
      | _ => none
  | _ => none

/-! ## Arms -/

namespace Header

/-- What the lines of an arm say. -/
def armCode (name : String) (chained : Bool) (arm : String × String) : List SearchLine :=
  [.compare chained arm.2, .opening, .assign (name ++ "::" ++ arm.1), .blank, .answer true,
    .closing]

/-- What the lines of a search say in front of its last answer. -/
def armsCode (name : String) : List (String × String) → List SearchLine
  | [] => []
  | first :: rest =>
      [.trim, .blank] ++ armCode name false first ++ rest.flatMap (armCode name true) ++ [.blank]

/-- The arm of a text. -/
def arm? (arms : List (String × String)) (s : String) : Option (String × String) :=
  arms.find? fun arm => arm.2 = s

theorem arm?_cons (first : String × String) (rest : List (String × String)) (s : String) :
    arm? (first :: rest) s = if first.2 = s then some first else arm? rest s := by
  by_cases h : first.2 = s
  · rw [if_pos h, arm?, List.find?_cons_of_pos (by simpa using h)]
  · rw [if_neg h, arm?, arm?, List.find?_cons_of_neg (by simpa using h)]

/-- A search behind arms: it has ended with the enumerator of an arm, or goes on. -/
def behindArms (s name : String) : Option (String × String) → Search
  | some arm => ⟨some s, some (name ++ "::" ++ arm.1), .ended true⟩
  | none => ⟨some s, none, .running (some false)⟩

section Arms

variable {s name : String}

/-- An arm ends the search with its enumerator if it is that of the text, and is passed over
otherwise. -/
theorem run_armCode {arm : String × String} (hplain : FreeOf Literal.specials arm.2)
    {chained : Bool} {chain : Option Bool} (hchain : chained = true → chain = some false) :
    (⟨some s, none, .running chain⟩ : Search).run s (armCode name chained arm) =
      behindArms s name (if arm.2 = s then some arm else none) := by
  have hcompare : Search.step s ⟨some s, none, .running chain⟩ (.compare chained arm.2) =
      ⟨some s, none, .before (s = arm.2) false⟩ := by
    cases chained with
    | false => simp [Search.step, Search.compare, hplain]
    | true => simp [Search.step, Search.compare, hplain, hchain rfl]
  rw [armCode, Search.run, List.foldl_cons, hcompare]
  by_cases harm : arm.2 = s
  · rw [if_pos harm, decide_eq_true harm.symm]
    rfl
  · rw [if_neg harm, decide_eq_false (Ne.symm harm)]
    rfl

/-- Further arms end the search with the first that is that of the text, if there is one. -/
theorem run_arms {arms : List (String × String)}
    (hplain : ∀ arm ∈ arms, FreeOf Literal.specials arm.2) :
    (behindArms s name none).run s (arms.flatMap (armCode name true)) =
      behindArms s name (arm? arms s) := by
  induction arms with
  | nil => rfl
  | cons arm rest ih =>
      obtain ⟨harm, hrest⟩ := List.forall_mem_cons.mp hplain
      rw [List.flatMap_cons, Search.run_append, behindArms, run_armCode harm fun _ => rfl,
        arm?_cons]
      by_cases hfound : arm.2 = s
      · rw [if_pos hfound, if_pos hfound, behindArms, Search.run_ended]
      · rw [if_neg hfound, if_neg hfound, ih hrest]

/-- A search that goes on behind its arms ends without an enumerator. -/
theorem run_behindArms (found : Option (String × String)) (after : List SearchLine) :
    (behindArms s name found).run s (.blank :: .answer false :: after) =
      ⟨some s, found.map fun arm => name ++ "::" ++ arm.1, .ended found.isSome⟩ := by
  cases found with
  | some arm => exact Search.run_ended ..
  | none => exact Search.run_ended ..

variable (s name) in
/-- A search assigns the enumerator of the first arm that is that of the text, and answers whether
there is one. -/
theorem run_armsCode {arms : List (String × String)}
    (hplain : ∀ arm ∈ arms, FreeOf Literal.specials arm.2) (after : List SearchLine) :
    ∃ trimmed, Search.start.run s (armsCode name arms ++ .answer false :: after) =
      ⟨trimmed, (arm? arms s).map fun arm => name ++ "::" ++ arm.1,
        .ended (arm? arms s).isSome⟩ := by
  cases arms with
  | nil => exact ⟨none, Search.run_ended s none none false after⟩
  | cons first rest =>
      obtain ⟨hfirst, hrest⟩ := List.forall_mem_cons.mp hplain
      have htrim : Search.start.run s [.trim, .blank] = ⟨some s, none, .running none⟩ := rfl
      have harms : (behindArms s name (if first.2 = s then some first else none)).run s
          (rest.flatMap (armCode name true)) = behindArms s name (arm? (first :: rest) s) := by
        rw [arm?_cons]
        by_cases hfound : first.2 = s
        · rw [if_pos hfound, if_pos hfound, behindArms, Search.run_ended]
        · rw [if_neg hfound, if_neg hfound, run_arms hrest]
      refine ⟨some s, ?_⟩
      rw [armsCode, List.append_assoc, List.append_assoc, List.append_assoc, Search.run_append,
        htrim, Search.run_append, run_armCode hfirst (by simp), Search.run_append, harms]
      exact run_behindArms _ after

end Arms

/-! ## Lines of a search -/

section Lines

variable {indent : String} (hindent : IsIndentation indent)

include hindent

/-- An indented line says what its text says. -/
theorem searchLine_indented (level : Nat) {s : String}
    (hs : ∀ c ∈ s.toList.head?, c ∉ indentChars) :
    SearchLine.read (Builder.indentation indent level ++ s) = .ofText s := by
  rw [SearchLine.read, unindented_append (isIndentation_indentation hindent level) hs]

/-- The lines of an arm. -/
theorem map_read_arm (level : Nat) (name : String) {keyword : String} {chained : Bool}
    (hkeyword : ∀ literal,
      SearchLine.ofText (keyword ++ " (trimmedValue == " ++ Literal.wide literal ++ ")") =
        .compare chained literal)
    (hstart : ∀ c ∈ keyword.toList.head?, c ∉ indentChars) (hne : keyword ≠ "")
    (arm : String × String) :
    (Layout.linesOf indent level (FreeFunction.armLayout name keyword arm)).map SearchLine.read =
      armCode name chained arm := by
  have hhead : ∀ s, (keyword ++ s).toList.head? = keyword.toList.head? := by
    intro s
    rw [String.toList_append, List.head?_append_of_ne_nil]
    exact fun hnil => hne (String.toList_inj.mp hnil)
  have hcompare := searchLine_indented hindent level
    (s := keyword ++ " (trimmedValue == " ++ Literal.wide arm.2 ++ ")")
    (by rwa [String.append_assoc, String.append_assoc, hhead])
  have hopen := searchLine_indented hindent level (s := "\x7b") (by simp [indentChars])
  have hassign := searchLine_indented hindent (level + 1)
    (s := "object = " ++ name ++ "::" ++ arm.1 ++ ";") (by simp [indentChars])
  have hanswer := searchLine_indented hindent (level + 1) (s := "return true;")
    (by simp [indentChars])
  have hclose := searchLine_indented hindent level (s := "\x7d") (by simp [indentChars])
  have htext : "object = " ++ name ++ "::" ++ arm.1 ++ ";" =
      "object = " ++ (name ++ "::" ++ arm.1) ++ ";" := by simp [String.append_assoc]
  rw [hkeyword] at hcompare
  rw [htext, SearchLine.ofText_assign] at hassign
  simp only [FreeFunction.armLayout, Layout.braced, Layout.linesOf_cons, Layout.linesOf_nil,
    Layout.linesOfOne, List.append_nil, List.map_cons, List.map_append, List.map_nil, hcompare,
    hopen, htext, hassign, hanswer, hclose]
  rfl

/-- The lines of arms. -/
theorem map_read_arms (level : Nat) (name : String) (arms : List (String × String)) :
    (Layout.linesOf indent level (FreeFunction.armsLayout name arms)).map SearchLine.read =
      armsCode name arms := by
  cases arms with
  | nil => rfl
  | cons first rest =>
      have htrim := searchLine_indented hindent level
        (s := "const auto trimmedValue\x7b Utils::TrimString(value) \x7d;") (by simp [indentChars])
      have hfirst := map_read_arm hindent level name SearchLine.ofText_if (by simp [indentChars])
        (by decide) first
      have hrest : (Layout.linesOf indent level
          (rest.flatMap (FreeFunction.armLayout name "else if"))).map SearchLine.read =
            rest.flatMap (armCode name true) := by
        induction rest with
        | nil => rfl
        | cons arm rest ih =>
            have harm := map_read_arm hindent level name SearchLine.ofText_elseIf
              (by simp [indentChars]) (by decide) arm
            rw [List.flatMap_cons, List.flatMap_cons, Layout.linesOf_append, List.map_append,
              harm, ih]
      rw [FreeFunction.armsLayout, armsCode, Layout.linesOf_append, Layout.linesOf_append,
        Layout.linesOf_append, List.map_append, List.map_append, List.map_append, hfirst, hrest]
      simp only [Layout.linesOf_cons, Layout.linesOf_nil, Layout.linesOfOne, List.map_cons,
        List.map_nil, List.cons_append, List.nil_append, htrim]
      rfl

end Lines

namespace FreeFunction

/-- The lines of a search. -/
theorem writtenLines_parseEnum (indent name : String) (arms : List (String × String)) :
    (parseEnum name arms).writtenLines indent =
      ("inline bool ParseEnumValue(const std::wstring_view value, " ++ name ++
        "& object) noexcept") :: "\x7b" ::
        (Layout.linesOf indent 1 (armsLayout name arms) ++
          [Builder.indentation indent 1 ++ "return false;", "\x7d"]) := by
  have hparts : (parseEnum name arms).parts =
      ("inline bool ParseEnumValue(const std::wstring_view value, " ++ name ++
        "& object) noexcept", armsLayout name arms ++ [.line "return false;"]) := rfl
  rw [writtenLines_eq, hparts, Layout.linesOf_append, List.append_assoc]
  rfl

/-- A search assigns the enumerator of the first arm that is that of the text, and answers whether
there is one. -/
theorem searchFor_parseEnum {indent : String} (hindent : IsIndentation indent) (name : String)
    {arms : List (String × String)} (hplain : ∀ arm ∈ arms, FreeOf Literal.specials arm.2)
    (s : String) :
    searchFor s ((parseEnum name arms).writtenLines indent) =
      some ((arm? arms s).map fun arm => name ++ "::" ++ arm.1, (arm? arms s).isSome) := by
  have hanswer := searchLine_indented hindent 1 (s := "return false;") (by simp [indentChars])
  obtain ⟨trimmed, hrun⟩ := run_armsCode s name hplain [.closing]
  have hcode : (Layout.linesOf indent 1 (armsLayout name arms) ++
      [Builder.indentation indent 1 ++ "return false;", "\x7d"]).map SearchLine.read =
        armsCode name arms ++ [.answer false, .closing] := by
    rw [List.map_append, map_read_arms hindent, List.map_cons, hanswer]
    rfl
  rw [writtenLines_parseEnum, searchFor, hcode, hrun]

section LineFree

variable {indent name : String} (hindent : LineFree indent) (hname : LineFree name)

include hindent hname

/-- An arm is written line by line if its enumerator and its text stand on one line. -/
theorem isLine_arm (level : Nat) {keyword : String} (hkeyword : LineFree keyword)
    {arm : String × String} (harm : LineFree arm.1 ∧ LineFree arm.2) :
    ∀ l ∈ Layout.linesOf indent level (armLayout name keyword arm), IsLine l := by
  have hliteral : LineFree (Literal.wide arm.2) :=
    lineFree_append.mpr ⟨lineFree_append.mpr ⟨by decide, harm.2⟩, by decide⟩
  have hcompare := isLine_indented hindent level (c := ')')
    (s := keyword ++ " (trimmedValue == " ++ Literal.wide arm.2 ++ ")")
    (lineFree_append.mpr ⟨lineFree_append.mpr
      ⟨lineFree_append.mpr ⟨hkeyword, by decide⟩, hliteral⟩, by decide⟩)
    (getLast?_append rfl) (by decide)
  have hassign := isLine_indented hindent (level + 1) (c := ';')
    (s := "object = " ++ name ++ "::" ++ arm.1 ++ ";")
    (lineFree_append.mpr ⟨lineFree_append.mpr ⟨lineFree_append.mpr
      ⟨lineFree_append.mpr ⟨by decide, hname⟩, by decide⟩, harm.1⟩, by decide⟩)
    (getLast?_append rfl) (by decide)
  have hanswer := isLine_indented hindent (level + 1) (s := "return true;") (c := ';') (by decide)
    (by decide) (by decide)
  have hbody : ∀ l ∈ Layout.linesOf indent (level + 1)
      [.line ("object = " ++ name ++ "::" ++ arm.1 ++ ";"), .blank, .line "return true;"],
      IsLine l := by
    simp only [Layout.linesOf_cons, Layout.linesOf_nil, Layout.linesOfOne, List.cons_append,
      List.nil_append, List.forall_mem_cons]
    exact ⟨hassign, ⟨by decide, by decide⟩, hanswer, List.forall_mem_nil _⟩
  rw [armLayout, Layout.linesOf_cons, Layout.linesOf_cons, Layout.linesOf_nil, List.append_nil,
    List.forall_mem_append]
  exact ⟨List.forall_mem_singleton.mpr hcompare, isLine_block hindent level hbody⟩

/-- A search is written line by line if its name and its arms stand on one line each. -/
theorem isLine_parseEnum {arms : List (String × String)}
    (harms : ∀ arm ∈ arms, LineFree arm.1 ∧ LineFree arm.2) :
    ∀ l ∈ (parseEnum name arms).writtenLines indent, IsLine l := by
  have hsignature : IsLine ("inline bool ParseEnumValue(const std::wstring_view value, " ++ name ++
      "& object) noexcept") :=
    Contract.isLine_append (lineFree_append.mpr ⟨by decide, hname⟩) (by decide)
      (by decide : "& object) noexcept".toList.getLast? = some 't') (by decide)
  have hblank : IsLine "" := ⟨by decide, by decide⟩
  have hanswer := isLine_indented hindent 1 (s := "return false;") (c := ';') (by decide)
    (by decide) (by decide)
  have hsearch : ∀ l ∈ Layout.linesOf indent 1 (armsLayout name arms), IsLine l := by
    cases arms with
    | nil => exact List.forall_mem_nil _
    | cons first rest =>
        obtain ⟨hfirst, hrest⟩ := List.forall_mem_cons.mp harms
        have htrim := isLine_indented hindent 1 (c := ';')
          (s := "const auto trimmedValue\x7b Utils::TrimString(value) \x7d;") (by decide)
          (by decide) (by decide)
        have hothers : ∀ l ∈ Layout.linesOf indent 1 (rest.flatMap (armLayout name "else if")),
            IsLine l := by
          clear hfirst hsignature hanswer htrim harms
          induction rest with
          | nil => exact List.forall_mem_nil _
          | cons arm rest ih =>
              obtain ⟨harm, hrest⟩ := List.forall_mem_cons.mp hrest
              rw [List.flatMap_cons, Layout.linesOf_append, List.forall_mem_append]
              exact ⟨isLine_arm hindent hname 1 (by decide) harm, ih hrest⟩
        rw [armsLayout, Layout.linesOf_append, Layout.linesOf_append, Layout.linesOf_append,
          List.forall_mem_append, List.forall_mem_append, List.forall_mem_append]
        refine ⟨⟨⟨?_, isLine_arm hindent hname 1 (by decide) hfirst⟩, hothers⟩,
          List.forall_mem_singleton.mpr hblank⟩
        exact List.forall_mem_cons.mpr ⟨htrim, List.forall_mem_singleton.mpr hblank⟩
  rw [writtenLines_parseEnum, List.forall_mem_cons, List.forall_mem_cons, List.forall_mem_append,
    List.forall_mem_cons, List.forall_mem_singleton]
  exact ⟨hsignature, ⟨by decide, by decide⟩, hsearch, hanswer, ⟨by decide, by decide⟩⟩

end LineFree

end FreeFunction

/-! ## Lines of enumerators -/

/-- The value of an enumerator as it is written, if it is. -/
def valueText (value : Option Int) : String :=
  match value with
  | some x => " = " ++ toString x
  | none => ""

/-- The spelling of an enumerator is its name and its value. -/
theorem Member.enumeratorText_eq (entry : String × Option Int) :
    enumeratorText entry = entry.1 ++ valueText entry.2 := by
  obtain ⟨name, value⟩ := entry
  cases value with
  | none => exact (String.append_empty).symm
  | some x => exact String.append_assoc ..

theorem freeOf_valueText (value : Option Int) : FreeOf Literal.lineBreaks (valueText value) := by
  cases value with
  | none => exact .ofList rfl
  | some x => exact FreeOf.append (.ofList rfl) (.toString_int rfl (by decide) x)

theorem isLine_of_freeOf {s : String} (h : FreeOf Literal.lineBreaks s) : IsLine s := by
  obtain ⟨hfeed, hreturn⟩ := Literal.forall_lineBreaks_iff.mp h
  exact ⟨hfeed, fun hlast => hreturn (List.mem_of_getLast? hlast)⟩

/-- An enumerator is written on a line together with what stands behind it. -/
theorem memberLines_enumeratorText {indent : String} (hindent : LineFree indent)
    {entry : String × Option Int} (hname : entry.1 ≠ "" ∧ FreeOf Literal.lineBreaks entry.1)
    (behind : String) (hbehind : FreeOf Literal.lineBreaks behind) :
    Layout.memberLines indent [.line (Member.enumeratorText entry ++ behind)] =
      [Builder.indentation indent 2 ++ (entry.1 ++ valueText entry.2 ++ behind)] := by
  rw [Member.enumeratorText_eq]
  refine memberLines_of_isLine hindent _ (isLine_of_freeOf ?_) (by simp [hname.1])
  exact (hname.2.append (freeOf_valueText entry.2)).append hbehind

/-- Each enumerator is written on a line, with a comma behind all but the last one. -/
theorem memberLines_enumeratorLines {indent : String} (hindent : LineFree indent)
    {entries : List (String × Option Int)}
    (hnames : ∀ entry ∈ entries, entry.1 ≠ "" ∧ FreeOf Literal.lineBreaks entry.1) :
    (Layout.memberLines indent (Member.enumeratorLines entries)).length = entries.length ∧
      ∀ i entry, entries[i]? = some entry →
        (Layout.memberLines indent (Member.enumeratorLines entries))[i]? =
          some (Builder.indentation indent 2 ++ (entry.1 ++ valueText entry.2 ++
            if i + 1 < entries.length then "," else "")) := by
  induction entries with
  | nil => exact ⟨rfl, fun i entry h => absurd h (by simp)⟩
  | cons entry rest ih =>
      cases rest with
      | nil =>
          have hname := hnames entry List.mem_cons_self
          have hlast := memberLines_enumeratorText hindent hname "" (by decide)
          rw [String.append_empty] at hlast
          rw [Member.enumeratorLines, hlast]
          refine ⟨rfl, fun i other h => ?_⟩
          cases i with
          | zero =>
              obtain rfl : entry = other := Option.some.inj h
              rfl
          | succ i => simp at h
      | cons next more =>
          obtain ⟨hname, hrest⟩ := List.forall_mem_cons.mp hnames
          have hfirst := memberLines_enumeratorText hindent hname "," (by decide)
          obtain ⟨hlength, hlines⟩ := ih hrest
          rw [Member.enumeratorLines, ← List.singleton_append, Layout.memberLines_append, hfirst]
          · refine ⟨by rw [List.length_append, hlength]; exact Nat.add_comm .., fun i other h => ?_⟩
            cases i with
            | zero =>
                obtain rfl : entry = other := Option.some.inj h
                rw [if_pos (by simp)]
                rfl
            | succ i =>
                rw [List.getElem?_cons_succ] at h
                rw [List.singleton_append, List.getElem?_cons_succ, hlines i other h,
                  List.length_cons (a := entry)]
                simp only [Nat.add_lt_add_iff_right]
          · exact List.cons_ne_nil next more

end Header

/-! ## The search for the enumerators of an enumeration -/

/-- A function searches for the enumerators of an enumeration: on a trimmed text it assigns the
enumerator at the place of a member and answers true exactly if the text is the name of this member,
and it only answers false if the text is the name of no member.  Its text is put together from its
lines, and has these lines if the name of the enumeration holds no line feeds. -/
structure SearchesEnumerators (e : EnumDecl) (entity : Entity) (written : List String) : Prop where
  signature : written.head? = some ("inline bool ParseEnumValue(const std::wstring_view value, " ++
    entity.name ++ "& object) noexcept")
  text : unlines written ∈ entity.functionTexts .standard
  file : ∀ space, (lines (unlines written)).map (Layout.nested Target.standard.indent) <:+:
    lines (entity.fileText .standard space)
  found : ∀ (i : Nat) m enumerator value, e.members[i]? = some m →
    entity.declaration.enumerators[i]? = some (enumerator, value) → ∀ s,
      searchFor s written = some (some (entity.name ++ "::" ++ enumerator), true) ↔ s = m.name
  missing : ∀ s, (∀ m ∈ e.members, m.name ≠ s) → searchFor s written = some (none, false)
  lines_eq : LineFree e.name → lines (unlines written) = written

/-- Lines of a header list the enumerators of an enumeration, one for each member: the line of an
enumerator holds its value if the member has one, and ends in a comma unless it is the last. -/
structure ListsEnumerators (e : EnumDecl) (entity : Entity) (declared : List String) : Prop where
  name : entity.declaration.name = entity.name
  values : entity.declaration.enumerators.map Prod.snd = e.members.map EnumMember.value
  length : declared.length = e.members.length
  line : ∀ (i : Nat) enumerator value,
    entity.declaration.enumerators[i]? = some (enumerator, value) →
      declared[i]? = some (Builder.indentation Target.standard.indent 2 ++
        (enumerator ++ valueText value ++ if i + 1 < e.members.length then "," else ""))
  file : ∀ space, declared <:+: lines (entity.fileText .standard space)

/-- Among arms with distinct texts, the arm of a text is the only one with this text. -/
theorem Header.arm?_eq_some_iff {arms : List (String × String)} (hnodup : (arms.map Prod.snd).Nodup)
    {s : String} {arm : String × String} : arm? arms s = some arm ↔ arm ∈ arms ∧ arm.2 = s := by
  constructor
  · intro h
    exact ⟨List.mem_of_find?_eq_some h, by simpa using List.find?_some h⟩
  · rintro ⟨harm, rfl⟩
    obtain ⟨other, hother⟩ := Option.isSome_iff_exists.mp
      (List.find?_isSome.mpr ⟨arm, harm, decide_eq_true rfl⟩ : (arm? arms arm.2).isSome = true)
    have htext : other.2 = arm.2 := by simpa using List.find?_some hother
    obtain rfl : other = arm :=
      List.inj_on_of_nodup_map hnodup (List.mem_of_find?_eq_some hother) harm htext
    exact hother

namespace EnumDecl

variable {e : EnumDecl}

/-- The arms of the search for enumerators. -/
theorem enumeratorArms_standard (e : EnumDecl) :
    enumeratorArms .standard e = e.members.map fun m => (capitalize m.name, m.name) :=
  List.map_congr_left fun m _ => congrArg (·, m.name) (Cpp.typeName_eq_capitalize m.name)

section Valid

variable (hvalid : e.Valid) (hnames : ∀ m ∈ e.members, FreeOf Literal.specials m.name)

include hnames

theorem forall_enumeratorArms_freeOf :
    ∀ arm ∈ enumeratorArms .standard e,
      FreeOf Literal.specials arm.1 ∧ FreeOf Literal.specials arm.2 := by
  rw [enumeratorArms_standard, List.forall_mem_map]
  exact fun m hm => ⟨(hnames m hm).capitalize (by decide), hnames m hm⟩

include hvalid

/-- A search finds the enumerator of a member exactly on the name of the member. -/
theorem searchFor_eq_iff {i : Nat} {m : EnumMember} (hm : e.members[i]? = some m)
    (name s : String) :
    searchFor s ((FreeFunction.parseEnum name
        (enumeratorArms .standard e)).writtenLines Target.standard.indent) =
      some (some (name ++ "::" ++ capitalize m.name), true) ↔ s = m.name := by
  have hplain := forall_enumeratorArms_freeOf hnames
  rw [FreeFunction.searchFor_parseEnum (by decide) name fun arm harm => (hplain arm harm).2,
    enumeratorArms_standard]
  have hown : (capitalize m.name, m.name) ∈
      e.members.map fun m => (capitalize m.name, m.name) :=
    List.mem_map_of_mem (List.mem_of_getElem? hm)
  have htexts : ((e.members.map fun m => (capitalize m.name, m.name)).map Prod.snd).Nodup := by
    rw [List.map_map]
    exact hvalid.members_nodup
  have henumerators :
      ((e.members.map fun m => (capitalize m.name, m.name)).map Prod.fst).Nodup := by
    rw [List.map_map]
    exact hvalid.enumerators_nodup
  constructor
  · intro h
    obtain ⟨hobject, -⟩ := Prod.mk.inj (Option.some.inj h)
    obtain ⟨arm, harm, heq⟩ := Option.map_eq_some_iff.mp hobject
    obtain ⟨hmem, rfl⟩ := (arm?_eq_some_iff htexts).mp harm
    -- the enumerators of two members differ
    obtain rfl : arm = (capitalize m.name, m.name) :=
      List.inj_on_of_nodup_map henumerators hmem hown ((String.append_right_inj _).mp heq)
    rfl
  · rintro rfl
    rw [(arm?_eq_some_iff htexts).mpr ⟨hown, rfl⟩]
    rfl

omit hvalid in
/-- A search finds nothing on a text that is the name of no member. -/
theorem searchFor_eq_none (name : String) {s : String} (hs : ∀ m ∈ e.members, m.name ≠ s) :
    searchFor s ((FreeFunction.parseEnum name
        (enumeratorArms .standard e)).writtenLines Target.standard.indent) =
      some (none, false) := by
  have hplain := forall_enumeratorArms_freeOf hnames
  have hnone : arm? (enumeratorArms .standard e) s = none := by
    rw [arm?, List.find?_eq_none, enumeratorArms_standard, List.forall_mem_map]
    exact fun m hm => by simpa using hs m hm
  rw [FreeFunction.searchFor_parseEnum (by decide) name fun arm harm => (hplain arm harm).2, hnone]
  rfl

/-- The header of a valid enumeration comes with a function that searches for its enumerators, if
the names of its members denote themselves in literals. -/
theorem searchesEnumerators :
    SearchesEnumerators e (e.dataEntity .standard)
      ((FreeFunction.parseEnum (Target.standard.naming.roleName (.ofEnum e) .dataType)
        (enumeratorArms .standard e)).writtenLines Target.standard.indent) := by
  have hindent : IsIndentation Target.standard.indent := by decide
  have hplain := forall_enumeratorArms_freeOf hnames
  have hfunction : .parseEnum (Target.standard.naming.roleName (.ofEnum e) .dataType)
      (enumeratorArms .standard e) ∈ (e.dataEntity .standard).functions := by
    change _ ∈ enumFunctions _ _ _
    unfold enumFunctions
    split <;> simp
  constructor
  case signature => rw [FreeFunction.writtenLines_parseEnum]; rfl
  case text =>
    rw [FreeFunction.writtenLines, ← Layout.render_eq]
    exact List.mem_map_of_mem hfunction
  case file =>
    intro space
    have hholds : Layout.HoldsText (Layout.render Target.standard.indent _)
        ((e.dataEntity .standard).fileLayout .standard space) :=
      Entity.holdsText_function hfunction space
    rw [Layout.render_eq] at hholds
    exact hholds.infix_lines_render hindent.lineFree List.infix_rfl
  case found =>
    intro i m enumerator value hm henumerator s
    rw [enumerators_standard, List.getElem?_map, hm] at henumerator
    obtain ⟨rfl, -⟩ := Prod.mk.inj (Option.some.inj henumerator)
    exact searchFor_eq_iff hvalid hnames hm _ s
  case missing => exact fun s hs => searchFor_eq_none hnames _ hs
  case lines_eq =>
    intro hname
    have htarget := Target.standard_keepsLines
    have helement : ∀ name ∈ (Element.ofEnum e).names, FreeOf ['\n'] name :=
      List.forall_mem_singleton.mpr (freeOf_lineFeed.mpr hname)
    have hdeclared := freeOf_lineFeed.mp (htarget.keeps.roleName helement .dataType)
    have hfeed : '\n' ∈ Literal.specials := by decide
    exact lines_unlines_of_isLine (FreeFunction.isLine_parseEnum htarget.indent hdeclared
      fun arm harm => ⟨(hplain arm harm).1 _ hfeed, (hplain arm harm).2 _ hfeed⟩)

/-- The lines of the enumerators of a valid enumeration, if the names of its members stand on one
line each. -/
theorem listsEnumerators :
    ListsEnumerators e (e.dataEntity .standard) (Layout.memberLines Target.standard.indent
      (Member.enumeratorLines (e.dataEntity .standard).declaration.enumerators)) := by
  have hlines : ∀ entry ∈ (e.dataEntity .standard).declaration.enumerators,
      entry.1 ≠ "" ∧ FreeOf Literal.lineBreaks entry.1 := by
    rw [enumerators_standard, List.forall_mem_map]
    intro m hm
    have hcapital : FreeOf Literal.specials (capitalize m.name) :=
      (hnames m hm).capitalize (by decide)
    have hne : capitalize m.name ≠ "" := fun hempty =>
      hvalid.members_named m hm ((capitalize_eq_empty_iff m.name).mp hempty)
    exact ⟨hne, fun mark hmark => hcapital mark (List.mem_of_mem_drop (i := 2) hmark)⟩
  have hlength : (e.dataEntity .standard).declaration.enumerators.length = e.members.length := by
    rw [enumerators_standard, List.length_map]
  obtain ⟨hdeclared, hline⟩ := memberLines_enumeratorLines Target.standard_keepsLines.indent hlines
  constructor
  case name => rfl
  case values =>
    rw [enumerators_standard, List.map_map]
    rfl
  case length => rw [hdeclared, hlength]
  case line =>
    intro i enumerator value henumerator
    rw [hline i _ henumerator, hlength]
  case file => exact fun space => e.enumeratorLines_infix space

end Valid

end EnumDecl

/-- The header of an enumeration of a loaded model lists an enumerator for each member, with the
value of the member if there is one and a comma behind all but the last, and comes with a function
that finds the enumerator of a member exactly on the name of the member, if the names of the members
hold no quotes, no backslashes and no line breaks. -/
theorem SourceFile.searchesEnumerators_of_load {file : SourceFile} {format : Format} {model : Model}
    (hload : file.load format = .ok model) (serviceUrl : String) {e : EnumDecl}
    (he : e ∈ model.enums) (hnames : ∀ m ∈ e.members, FreeOf ['"', '\\', '\n', '\r'] m.name) :
    ∃ entity written declared,
      model.Renders (Model.standardSetting serviceUrl) (.ofEnum e) .dataType entity ∧
        SearchesEnumerators e entity written ∧ ListsEnumerators e entity declared := by
  have hvalid := SourceFile.enum_valid_of_load hload he
  exact ⟨_, _, _, Model.renders_enumData (Model.standardSetting serviceUrl) he,
    EnumDecl.searchesEnumerators hvalid hnames, EnumDecl.listsEnumerators hvalid hnames⟩

example : searchFor " read" ((FreeFunction.parseEnum "Right" [("Read", " read"),
    ("Write", "write")]).writtenLines "\t") = some (some "Right::Read", true) := by decide +kernel

/-- A document about flags, one of which has a value. -/
def rightFile : SourceFile where
  name := "model.json"
  text := "[\"demo\", [[\"right\", true, [[\"read\", 4], [\"write\"]]]]]"

/-- The enumeration of rights. -/
def rightEnum : EnumDecl where
  name := "right"
  flags := true
  members := [⟨"read", some 4⟩, ⟨"write", none⟩]

/-- The model of rights. -/
def rightModel : Model :=
  (Model.new "demo").addEnum rightEnum

/-- The rights are found by their names alone. -/
theorem rightModel_searchesEnumerators :
    rightFile.load .json = .ok rightModel ∧ rightEnum ∈ rightModel.enums ∧
      (∀ m ∈ rightEnum.members, FreeOf ['"', '\\', '\n', '\r'] m.name) ∧
      ∃ entity written declared,
        rightModel.Renders (Model.standardSetting Model.defaultServiceUrl) (.ofEnum rightEnum)
            .dataType entity ∧
          SearchesEnumerators rightEnum entity written ∧
            ListsEnumerators rightEnum entity declared ∧
              searchFor "Write" written = some (none, false) := by
  have hload : rightFile.load .json = .ok rightModel := by decide +kernel
  have hmem : rightEnum ∈ rightModel.enums := List.mem_singleton_self rightEnum
  have hnames : ∀ m ∈ rightEnum.members, FreeOf ['"', '\\', '\n', '\r'] m.name := by decide
  obtain ⟨entity, written, declared, hrenders, hsearches, hlists⟩ :=
    SourceFile.searchesEnumerators_of_load hload Model.defaultServiceUrl hmem hnames
  exact ⟨hload, hmem, hnames, entity, written, declared, hrenders, hsearches, hlists,
    hsearches.missing "Write" (by decide)⟩

end SdkHeaders
