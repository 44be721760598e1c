import SdkHeaders.Document.Load
import SdkHeaders.Proofs.HeaderText
import SdkHeaders.Proofs.QuotedNames

/-!
# Labels of faults

The labels that show the places of a text that a fault is about.

Main results:

- Definition `Violation.subject?` is the name that a violation is about.
- Theorem `SourceFile.exists_findSpan_of_mem_labels`: the range of every label was found for this
  name.
- Theorem `SourceFile.labels_cover`: ranges of names are found soundly and in order, so that the
  labels of a rejected document cover the name that the document is rejected for.
-/

namespace SdkHeaders

open Text

/-! ## Subjects -/

/-- The name that a violation is about, if it is about one. -/
def Violation.subject? : Violation → Option String
  | .blankNamespace => none
  | .emptyEnumName => none
  | .emptyMemberName enumName => some enumName
  | .duplicateMember name => some name
  | .sharedEnumerator _ _ second _ => some second
  | .emptyClassName => none
  | .emptyPropertyName className => some className
  | .missingType _ property => some property
  | .duplicateProperty name => some name
  | .duplicateType name => some name
  | .unknownBase _ base => some base
  | .baseCycle className _ => some className

/-- The labels of a note are at its range. -/
theorem Fault.mem_label {text : String} {span : Option Span} {l : Label}
    (h : l ∈ Fault.label text span) : span = some l.span := by
  obtain ⟨s, hs, rfl⟩ := Option.map_eq_some_iff.mp (Option.mem_toList.mp h)
  exact hs

namespace SourceFile

variable {file : SourceFile} {violation : Violation}

@[simp]
theorem message_invalidAt (message name : String) :
    (file.invalidAt message name).message = message :=
  rfl

@[simp]
theorem message_duplicateName (kind name : String) :
    (file.duplicateName kind name).message = "duplicate " ++ kind ++ " name '" ++ name ++ "'" :=
  rfl

@[simp]
theorem message_unknownBase (className base : String) :
    (file.unknownBase className base).message =
      "class '" ++ className ++ "' derives from unknown class '" ++ base ++ "'" :=
  rfl

@[simp]
theorem message_baseCycle (className : String) (chain : List String) :
    (file.baseCycle className chain).message =
      "class '" ++ className ++ "' is part of a base class cycle" :=
  rfl

/-- The message of a located violation holds the name that it is about, in single quotes. -/
theorem within_message {name : String} (h : violation.subject? = some name) :
    Within (name ++ "'") (file.locate violation).message := by
  cases violation with
  | blankNamespace => cases h
  | emptyEnumName => cases h
  | emptyClassName => cases h
  | emptyMemberName enumName =>
      cases h
      exact within_of_eq "member name in enum '" " cannot be empty" (by
        simp [locate, String.append_assoc])
  | duplicateMember =>
      cases h
      exact within_of_eq "duplicate enum member name '" "" (by
        simp [locate, String.append_assoc])
  | sharedEnumerator enumName first second enumerator =>
      cases h
      have hquote : "' of '" = "'" ++ " of '" := by decide
      exact within_of_eq ("enum members '" ++ first ++ "' and '")
        (" of '" ++ enumName ++ "' both become enumerator '" ++ enumerator ++ "'") (by
          simp only [locate, message_invalidAt, hquote, String.append_assoc])
  | emptyPropertyName className =>
      cases h
      exact within_of_eq "property name in class '" " cannot be empty" (by
        simp [locate, String.append_assoc])
  | missingType className property =>
      cases h
      exact within_of_eq ("property '" ++ className ++ ".") " has no type" (by
        simp [locate, String.append_assoc])
  | duplicateProperty =>
      cases h
      exact within_of_eq "duplicate property name '" "" (by
        simp [locate, String.append_assoc])
  | duplicateType =>
      cases h
      exact within_of_eq "duplicate type name '" "" (by
        simp [locate, String.append_assoc])
  | unknownBase className base =>
      cases h
      exact within_of_eq ("class '" ++ className ++ "' derives from unknown class '") "" (by
        simp [locate, String.append_assoc])
  | baseCycle className chain =>
      cases h
      exact within_of_eq "class '" " is part of a base class cycle" (by
        simp [locate, String.append_assoc])

/-- The range of every label of a located violation was found for the name that it is about. -/
theorem exists_findSpan_of_mem_labels {l : Label} (h : l ∈ (file.locate violation).labels) :
    ∃ name n, violation.subject? = some name ∧ file.findSpan name n = some l.span := by
  have hunnamed : ∀ message, l ∉ (file.invalidAt message "").labels := by
    intro message hl
    have hspan := Fault.mem_label hl
    rw [findSpan, Source.findSpan_empty] at hspan
    cases hspan
  have hduplicate : ∀ {kind name}, l ∈ (file.duplicateName kind name).labels →
      ∃ n, file.findSpan name n = some l.span := by
    intro kind name hl
    rcases List.mem_append.mp hl with hfirst | hsecond
    · exact ⟨0, Fault.mem_label hfirst⟩
    · exact ⟨1, Fault.mem_label hsecond⟩
  cases violation with
  | blankNamespace => exact absurd h (hunnamed _)
  | emptyEnumName => exact absurd h (hunnamed _)
  | emptyClassName => exact absurd h (hunnamed _)
  | duplicateMember name =>
      obtain ⟨n, hn⟩ := hduplicate h
      exact ⟨name, n, rfl, hn⟩
  | duplicateProperty name =>
      obtain ⟨n, hn⟩ := hduplicate h
      exact ⟨name, n, rfl, hn⟩
  | duplicateType name =>
      obtain ⟨n, hn⟩ := hduplicate h
      exact ⟨name, n, rfl, hn⟩
  | emptyMemberName => exact ⟨_, 0, rfl, Fault.mem_label h⟩
  | sharedEnumerator => exact ⟨_, 0, rfl, Fault.mem_label h⟩
  | emptyPropertyName => exact ⟨_, 0, rfl, Fault.mem_label h⟩
  | missingType => exact ⟨_, 0, rfl, Fault.mem_label h⟩
  | unknownBase => exact ⟨_, 0, rfl, Fault.mem_label h⟩
  | baseCycle => exact ⟨_, 0, rfl, Fault.mem_label h⟩

/-! ## Ranges and labels -/

/-- What is found for a name is a quoted occurrence, and covers the name. -/
theorem quotedAt_of_findSpan {name : String} {n : Nat} {span : Span}
    (h : file.findSpan name n = some span) :
    Source.QuotedAt file.text name (span.offset - 1) ∧ Source.Covers file.text name span := by
  obtain ⟨-, offset, hoffset, rfl⟩ := Source.findSpan_eq_some_iff.mp h
  have hquoted := Source.quotedAt_of_mem (List.mem_of_getElem? hoffset)
  exact ⟨hquoted, hquoted.covers⟩

/-- The ranges found for a name in the text of a file cover quoted occurrences of the name.  A
further one comes only behind another, which ends with its closing quote before the opening quote of
the further one.  The first one is the leftmost occurrence, and is found if there is any.  If the
text is a document that is rejected, then all labels of the fault cover the name that the fault is
about. -/
theorem labels_cover {name : String} (hname : name ≠ "") (file : SourceFile) :
    (∀ n span, file.findSpan name n = some span →
      span.length = name.utf8ByteSize ∧ Source.QuotedAt file.text name (span.offset - 1) ∧
        Source.Covers file.text name span) ∧
    (∀ n later, file.findSpan name (n + 1) = some later →
      ∃ earlier, file.findSpan name n = some earlier ∧
        earlier.offset + (earlier.length + 2) ≤ later.offset) ∧
    (∀ offset, Source.QuotedAt file.text name offset →
      ∃ leftmost, file.findSpan name 0 = some leftmost ∧ leftmost.offset ≤ offset + 1) ∧
    ∀ format declared violation, file.decode format = some declared →
      declared.validate = .error violation →
        file.load format = .error (file.locate violation) ∧
          ∀ l ∈ (file.locate violation).labels, ∃ subject, violation.subject? = some subject ∧
            Within (subject ++ "'") (file.locate violation).message ∧
              Source.Covers file.text subject l.span := by
  refine ⟨?_, ?_, ?_, ?_⟩
  · intro n span h
    obtain ⟨-, _, -, rfl⟩ := Source.findSpan_eq_some_iff.mp h
    exact ⟨rfl, quotedAt_of_findSpan h⟩
  · intro n later h
    obtain ⟨-, second, hsecond, rfl⟩ := Source.findSpan_eq_some_iff.mp h
    have hlength := (List.getElem?_eq_some_iff.mp hsecond).1
    have hfirst := List.getElem?_eq_getElem (Nat.lt_of_succ_lt hlength)
    have horder := Source.add_le_of_lt hfirst hsecond (Nat.lt_succ_self n)
    exact ⟨_, Source.findSpan_eq_some_iff.mpr ⟨hname, _, hfirst, rfl⟩, by simp only; omega⟩
  · intro offset h
    obtain ⟨leftmost, hleftmost, hle⟩ := Source.le_of_quotedAt h
    exact ⟨_, Source.findSpan_eq_some_iff.mpr ⟨hname, leftmost, hleftmost, rfl⟩,
      Nat.succ_le_succ hle⟩
  · intro format declared violation hdecode hvalidate
    refine ⟨by simp only [load, hdecode, hvalidate], ?_⟩
    intro l hl
    obtain ⟨subject, n, hsubject, hspan⟩ := exists_findSpan_of_mem_labels hl
    exact ⟨subject, hsubject, within_message hsubject, (quotedAt_of_findSpan hspan).2⟩

end SourceFile

/-- A document that declares shades twice. -/
def shadeFile : SourceFile where
  name := "model.json"
  text := "[\"demo\", [[\"shade\"], [\"shade\", true]]]"

/-- What the document about shades declares. -/
def shadeDeclared : ModelFile where
  space := "demo"
  enums := [⟨"shade", false, []⟩, ⟨"shade", true, []⟩]
  classes := []

/-- Both labels of the fault cover shades, and the second one stands behind the first. -/
theorem shadeFile_labels_cover :
    "shade" ≠ "" ∧ shadeFile.decode .json = some shadeDeclared ∧
      shadeDeclared.validate = .error (.duplicateType "shade") ∧
      shadeFile.load .json = .error (shadeFile.locate (.duplicateType "shade")) ∧
      (shadeFile.locate (.duplicateType "shade")).labels =
        [⟨"first declared here", ⟨12, 5⟩⟩, ⟨"declared again here", ⟨23, 5⟩⟩] ∧
      Source.Covers shadeFile.text "shade" ⟨12, 5⟩ ∧
      Source.Covers shadeFile.text "shade" ⟨23, 5⟩ ∧
      ∃ earlier, shadeFile.findSpan "shade" 0 = some earlier ∧
        earlier.offset + (earlier.length + 2) ≤ 23 := by
  have hname : "shade" ≠ "" := by decide
  have hdecode : shadeFile.decode .json = some shadeDeclared := by decide +kernel
  have hvalidate : shadeDeclared.validate = .error (.duplicateType "shade") := by decide +kernel
  have hsecond : shadeFile.findSpan "shade" 1 = some ⟨23, 5⟩ := by decide +kernel
  obtain ⟨hcovers, horder, -, hlabels⟩ := SourceFile.labels_cover hname shadeFile
  exact ⟨hname, hdecode, hvalidate, (hlabels .json shadeDeclared _ hdecode hvalidate).1,
    by decide +kernel, (hcovers 0 ⟨12, 5⟩ (by decide +kernel)).2.2, (hcovers 1 _ hsecond).2.2,
    horder 0 _ hsecond⟩

end SdkHeaders
