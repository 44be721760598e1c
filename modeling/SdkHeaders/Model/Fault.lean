import SdkHeaders.Model.Source
import SdkHeaders.Model.Validation
import SdkHeaders.Document.Format

/-!
# Faults of model files

Why a model file could not be loaded, as it is told to the user: a message, a code, perhaps
an advice, and labels at the places of the file's text that the message is about.

Main definitions:

- Type `Fault` lists the causes, each with the spans that were found for it.
- Definitions `Fault.message`, `Fault.code`, `Fault.advice?` and `Fault.labels` word them.
- Definition `SourceFile.locate` turns a violation of the model rules into a fault.
-/

namespace SdkHeaders

/-! ## Faults -/

/-- The reason why a model file could not be loaded. -/
inductive Fault where
  /-- The file could not be read. -/
  | unreadable (path : String)
  /-- The text of the named file is not a document of the model's form. -/
  | malformed (file : String) (format : Format) (span : Option Span)
  /-- The document breaks a rule of models. -/
  | invalid (file message : String) (span : Option Span)
  /-- Two declarations have the same name. -/
  | duplicate (file kind name : String) (first second : Option Span)
  /-- A class derives from a class that is not declared. -/
  | unknownBase (file className base : String) (span : Option Span)
  /-- A class is its own base, perhaps by way of others. -/
  | baseCycle (file className : String) (chain : List String) (span : Option Span)
  deriving DecidableEq, Repr

/-- A note at a range of the text of a model file. -/
structure Label where
  /-- The wording of the note. -/
  text : String
  /-- The range that the note is about. -/
  span : Span
  deriving DecidableEq, Repr

namespace Fault

/-- The sentence that states the fault. -/
def message : Fault → String
  | unreadable path => "failed to read '" ++ path ++ "'"
  | malformed _ _ _ => "failed to parse model file"
  | invalid _ text _ => text
  | duplicate _ kind name _ _ => "duplicate " ++ kind ++ " name '" ++ name ++ "'"
  | unknownBase _ className base _ =>
      "class '" ++ className ++ "' derives from unknown class '" ++ base ++ "'"
  | baseCycle _ className _ _ => "class '" ++ className ++ "' is part of a base class cycle"

/-- The code by which the kind of fault is looked up. -/
def code : Fault → String
  | unreadable _ => "graphgen::io_error"
  | malformed _ .toml _ => "graphgen::parse_error"
  | malformed _ .json _ => "graphgen::json_error"
  | invalid _ _ _ => "graphgen::validation_error"
  | duplicate _ _ _ _ _ => "graphgen::duplicate_name"
  | unknownBase _ _ _ _ => "graphgen::unknown_base"
  | baseCycle _ _ _ _ => "graphgen::base_cycle"

/-- How the fault may be mended. -/
def advice? : Fault → Option String
  | unreadable _ => none
  | malformed _ _ _ => none
  | invalid _ _ _ => none
  | duplicate _ kind _ _ _ => some ("every " ++ kind ++ " in a model must have a unique name")
  | unknownBase _ _ base _ =>
      some ("declare '" ++ base ++ "' under [[classes]] or remove the base")
  | baseCycle _ _ chain _ => some ("cycle: " ++ " -> ".intercalate chain)

/-- The name of the file whose text the labels refer to. -/
def file? : Fault → Option String
  | unreadable _ => none
  | malformed file _ _ => some file
  | invalid file _ _ => some file
  | duplicate file _ _ _ _ => some file
  | unknownBase file _ _ _ => some file
  | baseCycle file _ _ _ => some file

/-- A label, if its range is known. -/
def label (text : String) (span : Option Span) : List Label :=
  (span.map fun s => Label.mk text s).toList

/-- The notes at the text of the file, in the order in which they are told. -/
def labels : Fault → List Label
  | unreadable _ => []
  | malformed _ _ span => label "parse error here" span
  | invalid _ text span => label text span
  | duplicate _ _ _ first second =>
      label "first declared here" first ++ label "declared again here" second
  | unknownBase _ _ _ span => label "not a class in this model" span
  | baseCycle _ _ _ span => label "cycle starts here" span

end Fault

/-! ## Locating faults -/

namespace SourceFile

/-- The range of the name in its `n`-th quoted occurrence. -/
def findSpan (file : SourceFile) (name : String) (n : Nat) : Option Span :=
  Source.findSpan file.text name n

/-- The document is broken at a line and a column, both counted from one. -/
def malformedAt (file : SourceFile) (line column : Nat) : Fault :=
  .malformed file.name .json ((Source.offsetOf file.text line column).map fun offset => ⟨offset, 1⟩)

/-- A rule of models is broken at a name. -/
def invalidAt (file : SourceFile) (message name : String) : Fault :=
  .invalid file.name message (file.findSpan name 0)

/-- Two declarations of the given kind have the same name. -/
def duplicateName (file : SourceFile) (kind name : String) : Fault :=
  .duplicate file.name kind name (file.findSpan name 0) (file.findSpan name 1)

/-- A class derives from a class that is not declared. -/
def unknownBase (file : SourceFile) (className base : String) : Fault :=
  .unknownBase file.name className base (file.findSpan base 0)

/-- Following bases from a class leads around a cycle. -/
def baseCycle (file : SourceFile) (className : String) (chain : List String) : Fault :=
  .baseCycle file.name className chain (file.findSpan className 0)

/-- The fault that tells of a violation in the text of a file. -/
def locate (file : SourceFile) : Violation → Fault
  | .blankNamespace => file.invalidAt "namespace cannot be empty" ""
  | .emptyEnumName => file.invalidAt "enum name cannot be empty" ""
  | .emptyMemberName enumName =>
      file.invalidAt ("member name in enum '" ++ enumName ++ "' cannot be empty") enumName
  | .duplicateMember name => file.duplicateName "enum member" name
  | .sharedEnumerator enumName first second enumerator =>
      file.invalidAt
        ("enum members '" ++ first ++ "' and '" ++ second ++ "' of '" ++ enumName ++
          "' both become enumerator '" ++ enumerator ++ "'")
        second
  | .emptyClassName => file.invalidAt "class name cannot be empty" ""
  | .emptyPropertyName className =>
      file.invalidAt ("property name in class '" ++ className ++ "' cannot be empty") className
  | .missingType className property =>
      file.invalidAt ("property '" ++ className ++ "." ++ property ++ "' has no type") property
  | .duplicateProperty name => file.duplicateName "property" name
  | .duplicateType name => file.duplicateName "type" name
  | .unknownBase className base => file.unknownBase className base
  | .baseCycle className chain => file.baseCycle className chain

end SourceFile

end SdkHeaders
